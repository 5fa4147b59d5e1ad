import HclEval.Call
import HclEval.Error
import HclEval.Reduction.Path

/-!
What an evaluation reads, what it changes, and how it stops. The state outlives an error, so
that a document evaluated in part is not lost.
-/
namespace HclEval

structure Setting where
  functions : Table Function
  lookups : Table Lookup
  vars : Table Value
  maxDepth : Nat

structure State where
  document : Document := []
  cache : LookupCache := []
  /-- The variables of the `for` expressions being evaluated, innermost first. -/
  scopes : List (Table Value) := []
  resolving : List String := []
  calls : List Call := []

inductive Stop where
  | error (error : Error)
  /-- The bound on the depth of the evaluation was too small. -/
  | exhausted
  deriving DecidableEq, Repr

abbrev Eval := ExceptT Stop (StateM State)

namespace Eval

def fail {α : Type} (error : Error) : Eval α := throw (.error error)

def ofExcept {α : Type} : Except Error α → Eval α
  | .ok a => pure a
  | .error error => fail error

/-- Runs an action inside one more scope, which is left again however the action ends. -/
def withScope {α : Type} (scope : Table Value) (action : Eval α) : Eval α :=
  ExceptT.mk fun state =>
    let (result, after) := action.run { state with scopes := scope :: state.scopes }
    (result, { after with scopes := after.scopes.tail })

def withReference {α : Type} (path : String) (action : Eval α) : Eval α :=
  ExceptT.mk fun state =>
    let (result, after) := action.run { state with resolving := path :: state.resolving }
    (result, { after with resolving := after.resolving.tail })

def record (call : Call) : Eval Unit :=
  modify fun state => { state with calls := state.calls ++ [call] }

end Eval
end HclEval
