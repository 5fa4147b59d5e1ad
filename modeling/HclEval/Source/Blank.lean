/-!
What may stand between the parts of a source text: blanks and comments. A comment from `/*` to `*/`
counts as a blank, one from `#` or `//` ends with its line. Where newlines are free, line
comments and newlines are blanks as well.
-/
namespace HclEval.Source

/-- A reader takes what it reads from the front of a text and answers it with the rest. -/
abbrev Reader (α : Type) := List Char → Option (α × List Char)

def afterComment? : List Char → Option (List Char)
  | '*' :: '/' :: rest => some rest
  | _ :: rest => afterComment? rest
  | [] => none

/-- The line ending after a line comment, which holds no lone carriage return. -/
def afterLine? (text : List Char) : Option (List Char) :=
  match text.dropWhile fun c => c != '\n' && c != '\r' with
  | '\r' :: '\n' :: rest => some ('\r' :: '\n' :: rest)
  | '\r' :: _ => none
  | rest => some rest

def afterLineComment? : List Char → Option (List Char)
  | '#' :: rest => afterLine? rest
  | '/' :: '/' :: rest => afterLine? rest
  | _ => none

def isSpace (free : Bool) (c : Char) : Bool :=
  c == ' ' || c == '\t' || (free && (c == '\n' || c == '\r'))

def skipWithin (free : Bool) : (fuel : Nat) → List Char → List Char
  | 0, text => text
  | fuel + 1, text =>
    let text := text.dropWhile (isSpace free)
    match text with
    | '/' :: '*' :: rest =>
      match afterComment? rest with
      | some rest => skipWithin free fuel rest
      | none => text
    | _ =>
      match if free then afterLineComment? text else none with
      | some rest => skipWithin free fuel rest
      | none => text

/-- Drops all blanks; `free` says whether newlines are blanks. -/
def skip (free : Bool) (text : List Char) : List Char :=
  match text with
  | [] => []
  | c :: _ =>
    if isSpace free c || c == '/' || c == '#' then skipWithin free text.length text else text

def newline? : List Char → Option (List Char)
  | '\n' :: rest => some rest
  | '\r' :: '\n' :: rest => some rest
  | _ => none

def nextLine? (text : List Char) : Option (List Char) :=
  let text := skip false text
  newline? ((afterLineComment? text).getD text)

def endOfLine? (text : List Char) : Option (List Char) :=
  let text := skip false text
  match (afterLineComment? text).getD text with
  | [] => some []
  | text => newline? text

def after? : List Char → List Char → Option (List Char)
  | [], text => some text
  | c :: front, d :: text => if c = d then after? front text else none
  | _ :: _, [] => none

def expect (c : Char) (text : List Char) : Option (List Char) := after? [c] text

def isIdentStart (c : Char) : Bool := c.isAlpha || c == '_'

def isIdentRest (c : Char) : Bool := c.isAlphanum || c == '_' || c == '-'

def identifier : Reader String
  | [] => none
  | c :: rest =>
    if isIdentStart c then
      some (String.ofList (c :: rest.takeWhile isIdentRest), rest.dropWhile isIdentRest)
    else none

end HclEval.Source
