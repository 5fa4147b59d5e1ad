import HclEval.Json.Quoted
import HclEval.Source.Blank

/-!
The literal text of strings and templates. Outside of quotes a backslash is a character like any
other.
-/
namespace HclEval.Source

def codePoint? (digits : List Char) : Option Char := do
  let code ← digits.foldlM (fun n c => (Json.hexValue? c).map (16 * n + ·)) 0
  if code.isValidChar then some (Char.ofNat code) else none

def escape : Reader Char
  | [] => none
  | c :: rest =>
    match c with
    | 'n' => some ('\n', rest)
    | 'r' => some ('\r', rest)
    | 't' => some ('\t', rest)
    | 'b' => some ('\x08', rest)
    | 'f' => some ('\x0c', rest)
    | '"' | '\\' | '/' => some (c, rest)
    | 'u' => codeOf 4 rest
    | 'U' => codeOf 8 rest
    | _ => none
where
  codeOf (width : Nat) (text : List Char) : Option (Char × List Char) :=
    if text.length < width then none
    else (codePoint? (text.take width)).map (·, text.drop width)

/-- What literal text stands in, which decides where it ends and what is escaped in it. -/
inductive Surround where
  | quotes
  /-- The branch of a directive, or a template that is a text of its own. -/
  | bare
  | lines (delimiter : List Char)
  deriving DecidableEq, Repr

def afterDelimiter? (delimiter line : List Char) : Option (List Char) :=
  after? delimiter (line.dropWhile (isSpace false))

def endsLines (delimiter text : List Char) : Bool :=
  match newline? text with
  | some line => (afterDelimiter? delimiter line).isSome
  | none => false

def Surround.ends (surround : Surround) (text : List Char) : Bool :=
  match surround with
  | quotes => text.head? == some '"'
  | bare => false
  | lines delimiter => endsLines delimiter text

/-- Reads one character of literal text. A doubled marker stands for a literal one. -/
def literalChars (surround : Surround) : Reader (List Char)
  | '$' :: '$' :: '{' :: rest => some (['$', '{'], rest)
  | '%' :: '%' :: '{' :: rest => some (['%', '{'], rest)
  | '$' :: '{' :: _ | '%' :: '{' :: _ => none
  | text =>
    if surround.ends text then none
    else match text with
      | [] => none
      | c :: rest =>
        if surround = .quotes && c = '\\' then (escape rest).map fun (c, rest) => ([c], rest)
        else some ([c], rest)

def literalWithin (surround : Surround) : (fuel : Nat) → List Char → List Char × List Char
  | 0, text => ([], text)
  | fuel + 1, text =>
    match literalChars surround text with
    | none => ([], text)
    | some (read, rest) =>
      let (more, rest) := literalWithin surround fuel rest
      (read ++ more, rest)

def afterVoidEscape? (surround : Surround) : List Char → Option (List Char)
  | '\\' :: _ :: rest => if surround = .quotes then some rest else none
  | _ => none

/-- The literal text at the front, up to an interpolation, a directive, the end of what it stands
in, or an escape that stands for nothing. Such an escape is dropped, unless no text is before
it. -/
def literalText (surround : Surround) (text : List Char) : List Char × List Char :=
  let (read, rest) := literalWithin surround text.length text
  if read.isEmpty then ([], text) else (read, (afterVoidEscape? surround rest).getD rest)

end HclEval.Source
