import HclEval.Value.Basic

/-!
Locations inside a value, and the accessors that lead there. An accessor is a name or a number;
numbers select list elements and map entries by position.
-/
namespace HclEval

namespace Number

/-- The position a number stands for: its integral part, unless it is negative or not finite. -/
def index? : Number → Option Nat
  | finite negative units => if negative && units != 0 then none else some (units / one)
  | _ => none

end Number

inductive Step where
  | key (name : String)
  | index (i : Nat)
  deriving DecidableEq, Repr

abbrev Path := List Step

inductive Accessor where
  | name (name : String)
  | index (x : Number)
  deriving DecidableEq, Repr

namespace Value

def child? : Value → Step → Option Value
  | map entries, .key name => Table.get? entries name
  | list items, .index i => items[i]?
  | _, _ => none

def at? : Value → Path → Option Value
  | value, [] => some value
  | value, step :: rest => (value.child? step).bind (at? · rest)

/-- Replaces the value at a location; nothing changes where there is no such location. -/
def put : Value → Path → Value → Value
  | _, [], replacement => replacement
  | map entries, .key name :: rest, replacement =>
    map (Table.modify entries name (put · rest replacement))
  | list items, .index i :: rest, replacement => list (items.modify i (put · rest replacement))
  | value, _ :: _, _ => value

def stepTo? : Value → Accessor → Option Step
  | map entries, .name name => if Table.contains entries name then some (.key name) else none
  | map entries, .index x => do
    let i ← x.index?
    let (name, _) ← entries[i]?
    return .key name
  | list items, .index x => do
    let i ← x.index?
    if i < items.length then some (.index i) else none
  | _, _ => none

def select? : Value → Accessor → Option Value
  | map entries, .name name => Table.get? entries name
  | map entries, .index x => do
    let i ← x.index?
    let (_, value) ← entries[i]?
    return value
  | list items, .index x => do
    let i ← x.index?
    items[i]?
  | _, _ => none

end Value

namespace Document

def slot? (document : Document) (path : Path) : Option Value := (Value.map document).at? path

def put (document : Document) (path : Path) (replacement : Value) : Document :=
  (((Value.map document).put path replacement).map?).getD []

/-- The entries of all `locals` blocks; of equal names the last block wins. -/
def locals (document : Document) : Table Value :=
  match Table.get? document "locals" with
  | some (.map entries) => entries
  | some (.list blocks) => (blocks.filterMap Value.map?).foldl Table.merge []
  | _ => []

def lastDeclaring? (name : String) (blocks : List Value) : Option Nat :=
  (List.range blocks.length).reverse.find? fun i =>
    match blocks[i]? with
    | some (.map entries) => Table.contains entries name
    | _ => false

def localPath? (document : Document) (name : String) : Option Path :=
  match Table.get? document "locals" with
  | some (.map entries) =>
    if Table.contains entries name then some [.key "locals", .key name] else none
  | some (.list blocks) =>
    (lastDeclaring? name blocks).map fun i => [.key "locals", .index i, .key name]
  | _ => none

end Document
end HclEval
