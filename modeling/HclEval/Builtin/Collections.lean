import HclEval.Builtin.Arguments

/-!
Built-in functions on lists and maps.
-/
namespace HclEval.Builtin

def mapAt? (arguments : List Value) (i : Nat) : Option (Table Value) :=
  arguments[i]?.bind Value.map?

def contains (arguments : List Value) : Option Value := do
  let items ← listAt? arguments 0
  let wanted ← arguments[1]?
  return .bool (items.any (· == wanted))

/-- The position that a number selects when positions start over after the last item. A number
too large counts as the largest of 64 bits. -/
def wrappedIndex? (length : Nat) (x : Number) : Option Nat :=
  if length = 0 || x.less .zero then none
  else
    let whole := match x with
      | .infinite _ => Number.wordCount - 1
      | x => min x.truncated (Number.wordCount - 1)
    some (whole % length)

def element (arguments : List Value) : Option Value := do
  let items ← listAt? arguments 0
  let x ← numberAt? arguments 1
  items[← wrappedIndex? items.length x]?

def length (arguments : List Value) : Option Value :=
  match arguments.head? with
  | some (.list items) => some (.ofNat items.length)
  | some (.map entries) => some (.ofNat entries.length)
  | some (.string text) => some (.ofNat text.length)
  | _ => none

def index (arguments : List Value) : Option Value := do
  let items ← listAt? arguments 0
  let wanted ← arguments[1]?
  return .ofNat (← items.findIdx? (· == wanted))

def isTrue : Value → Bool
  | .bool b => b
  | .string text => text == "true"
  | _ => false

def lookup (arguments : List Value) : Option Value := do
  let entries ← mapAt? arguments 0
  let key ← stringAt? arguments 1
  match entries.get? key with
  | some value => if value.isNull then arguments[2]? else some value
  | none => arguments[2]?

mutual

def flattenValue : Value → List Value
  | .list items => flattenItems items
  | value => [value]
termination_by structural value => value

def flattenItems : List Value → List Value
  | [] => []
  | value :: rest => flattenValue value ++ flattenItems rest

end

/-- Merges maps in order, passing over `null`; anything else makes the result `null`. -/
def mergeFrom (merged : Table Value) : List Value → Option (Table Value)
  | [] => some merged
  | .map entries :: rest => mergeFrom (merged.merge entries) rest
  | .null :: rest => mergeFrom merged rest
  | _ :: _ => none

def concat (arguments : List Value) : Option (List Value) :=
  (arguments.mapM Value.list?).map List.flatten

def collectionFunctions : Table Function := [
  ("contains", total contains),
  ("element", total element),
  ("length", total length),
  ("index", total index),
  ("one", total fun arguments => (listAt? arguments 0).bind List.head?),
  ("alltrue", total fun arguments => some (.bool ((listAt? arguments 0).all (·.all isTrue)))),
  ("anytrue", total fun arguments => some (.bool ((listAt? arguments 0).any (·.any isTrue)))),
  ("lookup", total lookup),
  ("flatten", total fun arguments => (listAt? arguments 0).map (.list ∘ flattenItems)),
  ("keys", total fun arguments => (mapAt? arguments 0).map fun entries =>
    .list (entries.keys.map .string)),
  ("values", total fun arguments => (mapAt? arguments 0).map fun entries =>
    .list (entries.map Prod.snd)),
  ("merge", total fun arguments => (mergeFrom [] arguments).map .map),
  ("concat", total fun arguments => (concat arguments).map .list)]

end HclEval.Builtin
