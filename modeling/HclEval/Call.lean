import HclEval.Value.Basic

/-!
Functions and data lookups, and the record of their calls. Both are given the calls made before
them, so that a function may depend on how often it was called and nothing else.
-/
namespace HclEval

inductive Call where
  | function (name : String) (arguments : List Value)
  /-- The instance is the second label of the `data` block. -/
  | lookup (provider : String) (inst : String) (properties : Table Value)
  deriving Repr

abbrev Function := List Call → List Value → Except String Value

abbrev Lookup := List Call → Table Value → Except String (Table Value)

abbrev LookupCache := Table (Table Value)

namespace LookupCache

def get? (cache : LookupCache) (provider inst : String) : Option Value := do
  let results ← Table.get? cache provider
  results.get? inst

def insert (cache : LookupCache) (provider inst : String) (value : Value) : LookupCache :=
  Table.insert cache provider
    (Table.insert ((Table.get? cache provider).getD []) inst value)

def toValue (cache : LookupCache) : Value :=
  .map (cache.map fun (provider, results) => (provider, .map results))

theorem get?_insert_self (cache : LookupCache) (provider inst : String) (value : Value) :
    (cache.insert provider inst value).get? provider inst = some value := by
  simp [get?, insert, Table.get?_insert]

end LookupCache
end HclEval
