import HclEval.Position
import HclEval.Source.Grammar

/-!
Reading documents. A body is a sequence of settings `name = value` and blocks, each ending with its
line; the names of its settings are distinct.
-/
namespace HclEval.Source

def label : Reader String := fun text =>
  match text with
  | '"' :: _ => quotedPlain text
  | _ => identifier text

def labelsWithin : (fuel : Nat) → Reader (List String)
  | 0, _ => none
  | fuel + 1, text => do
    let text := skip false text
    match expect '{' text with
    | some rest => return ([], rest)
    | none =>
      let (first, rest) ← label text
      let (labels, rest) ← labelsWithin fuel rest
      return (first :: labels, rest)

def settingValue : Reader Expr := fun text => do
  expr false (skip false (← expect '=' text))

/-- Reads the body of a block on one line up to the closing brace. `length` is that of the source
in bytes. -/
def lineBody (length : Nat) : Reader (List Structure) := fun text => do
  let text := skip false text
  match expect '}' text with
  | some rest => return ([], rest)
  | none =>
    let (name, rest) ← identifier text
    let (value, rest) ← settingValue (skip false rest)
    let offset := length - Position.byteLength text
    return ([.setting name value offset], ← expect '}' (skip false rest))

/-- Reads structures up to the end of the text or a closing brace, given the names of the settings
before them. -/
def bodyWithin (length : Nat) : (fuel : Nat) → (names : List String) → Reader (List Structure)
  | 0, _, _ => none
  | fuel + 1, names, text => do
    let text := skip true text
    if text.isEmpty || text.head? = some '}' then return ([], text)
    let offset := length - Position.byteLength text
    let (name, rest) ← identifier text
    let ahead := skip false rest
    if (expect '=' ahead).isSome then
      if names.contains name then none
      let (value, rest) ← settingValue ahead
      let (more, rest) ← bodyWithin length fuel (name :: names) (← endOfLine? rest)
      return (.setting name value offset :: more, rest)
    let (labels, rest) ← labelsWithin (rest.length + 1) rest
    let (body, rest) ← match nextLine? rest with
      | some rest => do
        let (body, rest) ← bodyWithin length fuel [] rest
        some (body, ← expect '}' rest)
      | none => lineBody length rest
    let (more, rest) ← bodyWithin length fuel names (← endOfLine? rest)
    return (.block (name :: labels) body offset :: more, rest)

def structures? (source : String) : Option (List Structure) :=
  let text := source.toList
  match bodyWithin (Position.byteLength text) (text.length + 1) [] text with
  | some (read, []) => some read
  | _ => none

end HclEval.Source
