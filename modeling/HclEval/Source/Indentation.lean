import HclEval.Source.Expr
import HclEval.Text.Blank

/-!
The indentation of heredocs. A heredoc may be written with more indentation than it means; what
its lines have in common is taken away. Lines are counted within literal text alone: the rest of a
line after an interpolation or a directive is not the start of a line.
-/
namespace HclEval.Source

def lines : List Char → List (List Char)
  | [] => []
  | '\n' :: rest | '\r' :: '\n' :: rest => [] :: lines rest
  | c :: rest =>
    match lines rest with
    | [] => [[c]]
    | line :: others => (c :: line) :: others

def endsLine (text : List Char) : Bool := text.getLast? == some '\n'

def splitLines (atStart : Bool) (text : List Char) : List (List Char) × List (List Char) :=
  (lines text).splitAt (if atStart then 0 else 1)

/-- The smallest indentation of the lines that begin in a text and are not empty, unless it
is zero. -/
def indent? (atStart : Bool) (text : List Char) : Option Nat := do
  let begun := (splitLines atStart text).2.filter (!·.isEmpty)
  let n ← (begun.map fun line => (line.takeWhile Text.isBlank).length).min?
  if n = 0 then none else some n

def dropIndent (n : Nat) (atStart : Bool) (text : List Char) : List Char :=
  let (kept, begun) := splitLines atStart text
  ['\n'].intercalate (kept ++ begun.map (·.drop n)) ++ (if endsLine text then ['\n'] else [])

/-- Takes the smallest indentation from all lines of a text, if all that are not empty have
one. -/
def unindent (text : List Char) : List Char :=
  match indent? true text with
  | none => text
  | some n => dropIndent n true text

def hasBareStart : (atStart : Bool) → List Element → Bool
  | _, [] => false
  | _, .literal text :: rest => hasBareStart (endsLine text.toList) rest
  | atStart, _ :: rest => atStart || hasBareStart false rest

def indents : (atStart : Bool) → List Element → List Nat
  | _, [] => []
  | atStart, .literal text :: rest =>
    (indent? atStart text.toList).toList ++ indents (endsLine text.toList) rest
  | _, _ :: rest => indents false rest

def dropIndents (n : Nat) : (atStart : Bool) → List Element → List Element
  | _, [] => []
  | atStart, .literal text :: rest =>
    .literal (String.ofList (dropIndent n atStart text.toList)) ::
      dropIndents n (endsLine text.toList) rest
  | _, element :: rest => element :: dropIndents n false rest

/-- Takes the smallest indentation of the literal texts that have one from all lines, or nothing
if a line starts with an interpolation or a directive. -/
def unindentTemplate (elements : List Element) : List Element :=
  if hasBareStart true elements then elements
  else match (indents true elements).min? with
    | none => elements
    | some n => dropIndents n true elements

def withLineEnd (lineEnd : String) : List Element → List Element
  | [] => [.literal lineEnd]
  | [.literal text] => [.literal (text ++ lineEnd)]
  | element :: rest => element :: withLineEnd lineEnd rest

end HclEval.Source
