import HclEval.Node.Equality
import HclEval.Number.Basic
import HclEval.Table

/-!
Values of a document. Besides data there are type declarations, passed through as written, and
trees that are not evaluated: between the two passes the attributes still to be evaluated, after
them the references that lead nowhere.
-/
namespace HclEval

inductive Value where
  | null
  | bool (b : Bool)
  | number (x : Number)
  | string (text : String)
  | list (items : List Value)
  | map (entries : List (String × Value))
  | type (marker : TypeMarker)
  | node (tree : Node)
  deriving Repr, Inhabited

abbrev Document := Table Value

namespace Value

/-- Everything but `null` and `false` counts as true. -/
def truthy : Value → Bool
  | null | bool false => false
  | _ => true

def isNull : Value → Bool
  | null => true
  | _ => false

def isUnresolved : Value → Bool
  | node tree => tree.isReference
  | _ => false

def string? : Value → Option String
  | string text => some text
  | _ => none

def number? : Value → Option Number
  | number x => some x
  | _ => none

def bool? : Value → Option Bool
  | bool b => some b
  | _ => none

def list? : Value → Option (List Value)
  | list items => some items
  | _ => none

def map? : Value → Option (Table Value)
  | map entries => some entries
  | _ => none

def ofNat (n : Nat) : Value := number (.ofNat n)

def ofOption : Option Value → Value := (·.getD null)

def pointer? (value : Value) : List String → Option Value
  | [] => some value
  | key :: rest => do
    let entries ← value.map?
    let child ← entries.get? key
    child.pointer? rest

mutual

/-- Maps are equal without regard to order, lists with regard to it; `nan` differs from itself. -/
def same : Value → Value → Bool
  | null, null => true
  | bool a, bool b => a == b
  | number x, number y => x == y
  | string a, string b => a == b
  | list xs, list ys => sameItems xs ys
  | map entries, map entries' => entries.length == entries'.length && sameEntries entries entries'
  | type marker, type marker' => marker == marker'
  | node tree, node tree' => tree == tree'
  | _, _ => false
termination_by structural value => value

def sameItems : List Value → List Value → Bool
  | [], [] => true
  | x :: xs, y :: ys => x.same y && sameItems xs ys
  | _, _ => false

def sameEntries : List (String × Value) → List (String × Value) → Bool
  | [], _ => true
  | (key, value) :: rest, other =>
    (match Table.get? other key with
      | some value' => value.same value'
      | none => false) && sameEntries rest other

end

instance : BEq Value := ⟨same⟩

mutual

def size : Value → Nat
  | list items => sizeItems items + 1
  | map entries => sizeEntries entries + 1
  | node tree => tree.size + 1
  | _ => 1
termination_by structural value => value

def sizeItems : List Value → Nat
  | [] => 0
  | value :: rest => value.size + sizeItems rest

def sizeEntries : List (String × Value) → Nat
  | [] => 0
  | (_, value) :: rest => value.size + sizeEntries rest

end

end Value
end HclEval
