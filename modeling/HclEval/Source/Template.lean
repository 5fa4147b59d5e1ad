import HclEval.Source.Indentation
import HclEval.Source.Literal
import HclEval.Source.Written

/-!
Templates: literal text with interpolations `${ … }` and directives `%{ … }`. The readers are given
the reader of expressions, which takes whether newlines are free.
-/
namespace HclEval.Source

abbrev ExprReader := (free : Bool) → Reader Expr

def openMarker? (marker : Char) (text : List Char) : Option (List Char) := do
  let rest ← after? [marker, '{'] text
  return (expect '~' rest).getD rest

def closeMarker? (text : List Char) : Option (List Char) :=
  expect '}' ((expect '~' text).getD text)

def interpolation (expr : ExprReader) : Reader Expr := fun text => do
  let rest ← openMarker? '$' text
  let (inner, rest) ← expr false (skip true rest)
  return (inner, ← closeMarker? (skip true rest))

def openDirective? (word : String) (text : List Char) : Option (List Char) := do
  let rest ← openMarker? '%' text
  after? word.toList (skip false rest)

def directive? (word : String) (text : List Char) : Option (List Char) := do
  closeMarker? (skip false (← openDirective? word text))

def loopVariables (free : Bool) : Reader (Option String × String) := fun text => do
  let (first, rest) ← identifier (skip free text)
  let rest := skip free rest
  match expect ',' rest with
  | none => return ((none, first), ← after? ['i', 'n'] rest)
  | some rest =>
    let (second, rest) ← identifier (skip free rest)
    return ((some first, second), ← after? ['i', 'n'] (skip free rest))

/-- Reads the elements of a template. A directive that starts none, or one that is not closed,
ends them. -/
def elementsWithin (expr : ExprReader) : (fuel : Nat) → Surround → Reader (List Element)
  | 0, _, _ => none
  | fuel + 1, surround, text => do
    let (literal, rest) := literalText surround text
    if !literal.isEmpty then
      let (more, rest) ← elementsWithin expr fuel surround rest
      return (.literal (String.ofList literal) :: more, rest)
    if (after? ['$', '{'] text).isSome then
      let (inner, rest) ← interpolation expr text
      let (more, rest) ← elementsWithin expr fuel surround rest
      return (.interpolation inner :: more, rest)
    match openDirective? "if" text, openDirective? "for" text with
    | some rest, _ =>
      let (condition, rest) ← expr false (skip false rest)
      let rest ← closeMarker? (skip false rest)
      let (yes, rest) ← elementsWithin expr fuel .bare rest
      let (no, rest) ← match directive? "else" rest with
        | some rest => (elementsWithin expr fuel .bare rest).map fun (no, rest) => (some no, rest)
        | none => some (none, rest)
      let some rest := directive? "endif" rest | return ([], text)
      let (more, rest) ← elementsWithin expr fuel surround rest
      return (.conditional condition yes no :: more, rest)
    | none, some rest =>
      let ((keyVariable, valueVariable), rest) ← loopVariables false rest
      let (collection, rest) ← expr false (skip false rest)
      let rest ← closeMarker? (skip false rest)
      let (body, rest) ← elementsWithin expr fuel .bare rest
      let some rest := directive? "endfor" rest | return ([], text)
      let (more, rest) ← elementsWithin expr fuel surround rest
      return (.loop keyVariable valueVariable collection body :: more, rest)
    | none, none => return ([], text)

def elements (expr : ExprReader) (surround : Surround) : Reader (List Element) := fun text =>
  elementsWithin expr (text.length + 1) surround text

def template? (expr : ExprReader) (text : String) : Option (List Element) :=
  match elements expr .bare text.toList with
  | some (read, []) => some read
  | _ => none

def Expr.ofElements : List Element → Expr
  | [] => .string ""
  | [.literal text] => .string text
  | elements => .template (templateText elements)

def quoted (expr : ExprReader) : Reader Expr := fun text => do
  let (read, rest) ← elements expr .quotes (← expect '"' text)
  return (.ofElements read, ← expect '"' rest)

def quotedPlain : Reader String := fun text => do
  let (read, rest) := literalText .quotes (← expect '"' text)
  return (String.ofList read, ← expect '"' rest)

def lastLine? (delimiter text : List Char) : Option (List Char × List Char) := do
  let line ← newline? text
  return (text.take (text.length - line.length), ← afterDelimiter? delimiter line)

/-- Reads a heredoc: its lines with their line ends, between the line of the opening delimiter
and the first line after the next that starts with the delimiter again. Only where there is no
such line, the heredoc may end before it has any. -/
def heredoc (expr : ExprReader) : Reader Expr := fun text => do
  let rest ← after? ['<', '<'] text
  let (indented, rest) := match expect '-' rest with
    | some rest => (true, rest)
    | none => (false, rest)
  let (delimiter, rest) ← identifier rest
  let rest ← newline? rest
  let (read, last) ← elements expr (.lines delimiter.toList) rest
  match lastLine? delimiter.toList last with
  | some (lineEnd, rest) =>
    let read := withLineEnd (String.ofList lineEnd) read
    let read := if indented then unindentTemplate read else read
    return (.heredoc indented delimiter (templateText read), rest)
  | none => return (.heredoc indented delimiter "", ← afterDelimiter? delimiter.toList rest)

end HclEval.Source
