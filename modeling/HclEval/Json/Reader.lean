import HclEval.Json.Quoted
import HclEval.Number.Arithmetic
import HclEval.Number.Reader
import HclEval.Value.Basic

/-!
Reading JSON texts. At most 127 levels of arrays and objects are read; of equal keys the first
gives the place and the last the value; a number beyond the range of numbers is an error.
-/
namespace HclEval.Json

def isSpace (c : Char) : Bool := c = ' ' || c = '\n' || c = '\t' || c = '\r'

def skipSpace (text : List Char) : List Char := text.dropWhile isSpace

/-- Scales by a power of ten in steps of at most 308, each step rounded. -/
def scale? (x : Number) (exponent : Int) : Nat → Option Number
  | 0 => none
  | n + 1 =>
    if exponent.natAbs ≤ 308 then
      let power := Number.ofDecimal false 1 exponent.natAbs
      if 0 ≤ exponent then
        let scaled := x.mul power
        if scaled.isFinite then some scaled else none
      else some (x.div power)
    else if x == .zero then some x
    else if 0 ≤ exponent then none
    else scale? (x.div (Number.ofDecimal false 1 308)) (exponent + 308) n

/-- Appends digits to a number as long as it stays below `2 ^ 64`. Answers the number, how many
digits were taken and the digits left over. -/
def takeDigits (n : Nat) (taken : Nat) : List Char → Nat × Nat × List Char
  | [] => (n, taken, [])
  | c :: rest =>
    let next := 10 * n + Number.digitValue c
    if Number.wordCount ≤ next then (n, taken, c :: rest) else takeDigits next (taken + 1) rest

def readExponent? : List Char → Option (Int × List Char)
  | c :: rest =>
    if c = 'e' || c = 'E' then
      let (negative, rest) : Bool × List Char := match rest with
        | '-' :: tail => (true, tail)
        | '+' :: tail => (false, tail)
        | tail => (false, tail)
      let digits := rest.takeWhile Char.isDigit
      if digits.isEmpty then none
      else
        let n : Int := Number.ofDigits digits
        some (if negative then -n else n, rest.dropWhile Char.isDigit)
    else some (0, c :: rest)
  | [] => some (0, [])

/-- Reads an unsigned number. The leading digits that fit 64 bits count, those after them
only by their place. -/
def readUnsigned? (text : List Char) : Option (Number × List Char) := do
  let whole := text.takeWhile Char.isDigit
  let rest := text.dropWhile Char.isDigit
  if whole.isEmpty || (whole.head? = some '0' && whole.length ≠ 1) then none
  let (n, _, left) := takeDigits 0 0 whole
  let (fraction, rest) ← match rest with
    | '.' :: tail =>
      let digits := tail.takeWhile Char.isDigit
      if digits.isEmpty then none else some (digits, tail.dropWhile Char.isDigit)
    | _ => some ([], rest)
  let (n, places, _) := takeDigits n 0 fraction
  let (exponent, rest) ← readExponent? rest
  let exponent := exponent + left.length - places
  let x ← scale? (.ofNat n) exponent (exponent.natAbs / 308 + 1)
  return (x, rest)

def readNumber? : List Char → Option (Number × List Char)
  | '-' :: rest => (readUnsigned? rest).map fun (x, rest) => (x.neg, rest)
  | text => readUnsigned? text

def word? (word : String) (value : Value) (text : List Char) : Option (Value × List Char) :=
  if word.toList.isPrefixOf text then some (value, text.drop word.length) else none

def readItems? (item : List Char → Option (Value × List Char)) :
    Nat → List Char → Option (List Value × List Char)
  | 0, _ => none
  | n + 1, text => do
    let (value, rest) ← item (skipSpace text)
    match skipSpace rest with
    | ',' :: rest =>
      let (values, rest) ← readItems? item n rest
      return (value :: values, rest)
    | ']' :: rest => return ([value], rest)
    | _ => none

def readEntries? (item : List Char → Option (Value × List Char)) :
    Nat → List Char → Option (List (String × Value) × List Char)
  | 0, _ => none
  | n + 1, text => do
    let '"' :: rest := skipSpace text | none
    let (key, rest) ← unquote? rest
    let ':' :: rest := skipSpace rest | none
    let (value, rest) ← item (skipSpace rest)
    match skipSpace rest with
    | ',' :: rest =>
      let (entries, rest) ← readEntries? item n rest
      return ((String.ofList key, value) :: entries, rest)
    | '}' :: rest => return ([(String.ofList key, value)], rest)
    | _ => none

def readValue? (depth : Nat) (text : List Char) : Option (Value × List Char) :=
  match text with
  | 'n' :: _ => word? "null" .null text
  | 't' :: _ => word? "true" (.bool true) text
  | 'f' :: _ => word? "false" (.bool false) text
  | '"' :: rest => (unquote? rest).map fun (chars, rest) => (.string (String.ofList chars), rest)
  | '[' :: rest =>
    match depth with
    | 0 => none
    | depth + 1 =>
      match skipSpace rest with
      | ']' :: rest => some (.list [], rest)
      | rest => (readItems? (readValue? depth) (rest.length + 1) rest).map fun (items, rest) =>
          (.list items, rest)
  | '{' :: rest =>
    match depth with
    | 0 => none
    | depth + 1 =>
      match skipSpace rest with
      | '}' :: rest => some (.map [], rest)
      | rest => (readEntries? (readValue? depth) (rest.length + 1) rest).map fun (entries, rest) =>
          (.map (Table.ofEntries entries), rest)
  | _ => (readNumber? text).map fun (x, rest) => (.number x, rest)
termination_by structural depth

def read? (text : String) : Option Value := do
  let (value, rest) ← readValue? 127 (skipSpace text.toList)
  if (skipSpace rest).isEmpty then some value else none

end HclEval.Json
