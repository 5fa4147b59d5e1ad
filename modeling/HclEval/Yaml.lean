import HclEval.Json.Writer
import HclEval.Number.Reader

/-!
Values as YAML in block form. A text is written plain where it can be read back as the same text,
else in single quotes, or in double quotes if it holds characters that need an escape; a text of
several lines is a literal block.
-/
namespace HclEval.Yaml

def isBreak (c : Char) : Bool :=
  c == '\n' || c == '\r' || c == '\u0085' || c == '\u2028' || c == '\u2029'

def isPrintable (c : Char) : Bool :=
  let n := c.toNat
  n == 0x0A || (0x20 ≤ n && n ≤ 0x7E) || n == 0x85 || (0xA0 ≤ n && n ≤ 0xD7FF) ||
    (0xE000 ≤ n && n ≤ 0xFFFD && n != 0xFEFF) || 0x10000 ≤ n

/-- Is the text a leading zero with more digits, which looks like a number and is none? -/
def isPaddedDigits (text : List Char) : Bool :=
  let text := match text with
    | '-' :: rest | '+' :: rest => rest
    | rest => rest
  match text with
  | '0' :: d :: rest => (d :: rest).all Char.isDigit
  | _ => false

def isDigitOf (base : Nat) (c : Char) : Bool :=
  ((Json.hexValue? c).map fun n => decide (n < base)).getD false

def isBasedInteger (text : List Char) : Bool :=
  let text := match text with
    | '-' :: rest | '+' :: rest => rest
    | rest => rest
  match text with
  | '0' :: 'x' :: rest => !rest.isEmpty && rest.all (isDigitOf 16)
  | '0' :: 'o' :: rest => !rest.isEmpty && rest.all (isDigitOf 8)
  | '0' :: 'b' :: rest => !rest.isEmpty && rest.all (isDigitOf 2)
  | _ => false

def constantWords : List String :=
  ["", "null", "Null", "NULL", "~", "true", "True", "TRUE", "false", "False", "FALSE",
   ".inf", ".Inf", ".INF", "+.inf", "+.Inf", "+.INF", "-.inf", "-.Inf", "-.INF",
   ".nan", ".NaN", ".NAN"]

/-- Would the plain text be read as something else than a text? -/
def isAmbiguous (text : String) : Bool :=
  constantWords.contains text || isPaddedDigits text.toList || isBasedInteger text.toList ||
    match Number.read? text with
    | some x => x.isFinite
    | none => false

def startsIndicator (c : Char) : Bool := "#,[]\x7b\x7d&*!|>'\"%@`".toList.contains c

def hasInnerIndicator : List Char → Bool
  | ':' :: ' ' :: _ | [':'] => true
  | ' ' :: '#' :: _ => true
  | _ :: rest => hasInnerIndicator rest
  | [] => false

def hasIndicator (text : List Char) : Bool :=
  (match text with
    | [] => false
    | [c] => startsIndicator c || c == '-' || c == '?'
    | c :: d :: _ => startsIndicator c || ((c == '-' || c == '?') && d == ' ')) ||
    ['-', '-', '-'].isPrefixOf text || ['.', '.', '.'].isPrefixOf text || hasInnerIndicator text

def hasOuterSpace (text : List Char) : Bool :=
  text.head? == some ' ' || text.getLast? == some ' '

def singleQuoted (text : List Char) : String :=
  "'" ++ String.ofList (text.flatMap fun c => if c = '\'' then ['\'', '\''] else [c]) ++ "'"

def escapeChar (c : Char) : List Char :=
  if c = '"' then ['\\', '"']
  else if c = '\\' then ['\\', '\\']
  else if c = '\x00' then ['\\', '0']
  else if c = '\x07' then ['\\', 'a']
  else if c = '\x08' then ['\\', 'b']
  else if c = '\t' then ['\\', 't']
  else if c = '\n' then ['\\', 'n']
  else if c = '\x0b' then ['\\', 'v']
  else if c = '\x0c' then ['\\', 'f']
  else if c = '\r' then ['\\', 'r']
  else if c = '\x1b' then ['\\', 'e']
  else if c = '\u0085' then ['\\', 'N']
  else if c = '\u2028' then ['\\', 'L']
  else if c = '\u2029' then ['\\', 'P']
  else if isPrintable c then [c]
  else
    let digits := (Nat.toDigits 16 c.toNat).map Char.toUpper
    let (mark, width) : Char × Nat :=
      if c.toNat ≤ 0xFF then ('x', 2) else if c.toNat ≤ 0xFFFF then ('u', 4) else ('U', 8)
    '\\' :: mark :: List.replicate (width - digits.length) '0' ++ digits

def doubleQuoted (text : List Char) : String :=
  "\"" ++ String.ofList (text.flatMap escapeChar) ++ "\""

def line (text : String) : String :=
  let chars := text.toList
  if chars.any fun c => !isPrintable c || isBreak c then doubleQuoted chars
  else if isAmbiguous text || hasIndicator chars || hasOuterSpace chars then singleQuoted chars
  else text

/-- What is written after a key or a dash: a text with the lines below it, which are indented, or
the lines of a list or map. -/
inductive Block where
  | inline (text : String) (below : List String)
  | items (lines : List String)
  | entries (lines : List String)

def indent (lines : List String) : List String :=
  lines.map fun line => if line.isEmpty then line else "  " ++ line

def literal (text : String) : Block :=
  let parts := text.splitOn "\n"
  let mark := if text.startsWith " " || text.startsWith "\n" then "|2" else "|"
  let chomp :=
    if !text.endsWith "\n" then "-" else if text.endsWith "\n\n" || text == "\n" then "+" else ""
  .inline (mark ++ chomp) (if text.endsWith "\n" then parts.dropLast else parts)

def ofText (text : String) : Block :=
  if text.contains '\n' && text.toList.all isPrintable && text.toList.getLast? != some ' ' then
    literal text
  else .inline (line text) []

def writeNumber (x : Number) : String :=
  match Number.shortInt? x, x with
  | some n, _ => Number.writeInt n
  | none, .nan => ".nan"
  | none, .infinite negative => if negative then "-.inf" else ".inf"
  | none, x => Number.source.write x

def itemLines : Block → List String
  | .inline text below => ("- " ++ text) :: indent below
  | .items lines | .entries lines =>
    match lines with
    | [] => []
    | first :: rest => ("- " ++ first) :: indent rest

def entryLines (key : String) : Block → List String
  | .inline text below => (line key ++ ": " ++ text) :: indent below
  | .items lines => (line key ++ ":") :: lines
  | .entries lines => (line key ++ ":") :: indent lines

mutual

def block : Value → Block
  | .list items => if items.isEmpty then .inline "[]" [] else .items (blockItems items)
  | .map entries =>
    if entries.isEmpty then .inline "\x7b\x7d" [] else .entries (blockEntries entries)
  | .null => .inline "null" []
  | .bool b => .inline (if b then "true" else "false") []
  | .number x => .inline (writeNumber x) []
  | .string text => ofText text
  | .type marker => ofText (Value.type marker).text
  | .node tree => ofText (Value.node tree).text
termination_by structural value => value

def blockItems : List Value → List String
  | [] => []
  | item :: rest => itemLines (block item) ++ blockItems rest

def blockEntries : List (String × Value) → List String
  | [] => []
  | (key, value) :: rest => entryLines key (block value) ++ blockEntries rest

end

def write (value : Value) : String :=
  match block value with
  | .inline text below => String.join ((text :: below).map (· ++ "\n"))
  | .items lines | .entries lines => String.join (lines.map (· ++ "\n"))

end HclEval.Yaml
