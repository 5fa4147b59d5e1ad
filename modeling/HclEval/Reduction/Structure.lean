import HclEval.Reduction.Expression
import HclEval.Reduction.Placement

/-!
The first pass, which builds the shape of a document: blocks are placed, plain values converted,
and all other attributes kept unevaluated for the second pass. What was built before an error
stays.
-/
namespace HclEval.Reduction

abbrev Build := ExceptT Stop (StateT (Table Value) (StateM State))

namespace Build

def ofEval {α : Type} (action : Eval α) : Build α :=
  ExceptT.mk fun table => do return (← action.run, table)

def table (build : Build Unit) : Eval (Table Value) :=
  ExceptT.mk do
    let (result, table) ← (build.run).run []
    return result.map fun _ => table

/-- Fills the map at a location of the table, and puts it back however the filling ends. -/
def within (path : Path) (build : Build Unit) : Build Unit :=
  ExceptT.mk fun table => do
    let inner := (((Value.map table).at? path).bind Value.map?).getD []
    let (result, inner) ← (build.run).run inner
    return (result, Document.put table path (.map inner))

def insert (name : String) (value : Value) : Build Unit :=
  modify (Table.insert · name value)

def block (names : List String) (position : Option Position) (body : Build Unit) : Build Unit := do
  match place (← get) names with
  | .ok (table, path) =>
    set table
    within path body
  | .error (obstacle, names) => throw (.error (obstacle.error names position))

end Build

variable (reduce : Node → Eval Value)

def computedName (name : Node) : Eval String := do
  match (← reduce name).keyText? with
  | some key => pure key
  | none => Eval.fail (.invalidAttributeName name.text)

mutual

def structureEach : List Node → Build Unit
  | [] => pure ()
  | node :: rest => do
    structureNode node
    structureEach rest
termination_by structural nodes => nodes

def structureNode : Node → Build Unit
  | .block names children position => Build.block names position (structureEach children)
  | .named name children position => do
    let value ← Build.ofEval (structureChildren (.named name children position) children)
    Build.insert name value
  | .keyed key children position => do
    let name ← Build.ofEval (computedName reduce key)
    let value ← Build.ofEval (structureChildren (.keyed key children position) children)
    Build.insert name value
  | _ => pure ()

/-- The first value of an attribute, given the attribute and its children. -/
def structureChildren (whole : Node) : List Node → Eval Value
  | [] => pure (.node whole)
  | [child] => structureOnly whole child
  | _ :: _ :: _ => pure (.node whole)

def structureOnly (whole : Node) : Node → Eval Value
  | .block _ children _ => return .map (← (structureEach children).table)
  | .literal kind raw => Eval.ofExcept (literalValue kind raw)
  | .type marker => pure (.type marker)
  | .map entries =>
    if entries.any Node.isKeyed then pure (.node (.map entries))
    else return .map (← (structureEach entries).table)
  | .array elements =>
    if elements.isEmpty then pure .null else return .list (← structureValues elements)
  | _ => pure (.node whole)

/-- The first value of a node that is no attribute: what refers to nothing is evaluated at once. -/
def structureValue : Node → Eval Value
  | .literal kind raw => Eval.ofExcept (literalValue kind raw)
  | .type marker => pure (.type marker)
  | .map entries =>
    if entries.any Node.isKeyed then pure (.node (.map entries))
    else return .map (← (structureEach entries).table)
  | .array elements =>
    if elements.isEmpty then pure .null else return .list (← structureValues elements)
  | .block names children position =>
    return .map (← (Build.block names position (structureEach children)).table)
  | .named name children position => do
    let value ← structureChildren (.named name children position) children
    return .map [(name, value)]
  | .keyed key children position => do
    let name ← computedName reduce key
    let value ← structureChildren (.keyed key children position) children
    return .map [(name, value)]
  | .operator _ | .segment _ => pure .null
  | node => if node.hasReferences then pure (.node node) else reduce node

def structureValues : List Node → Eval (List Value)
  | [] => pure []
  | node :: rest => return (← structureValue node) :: (← structureValues rest)

end

end HclEval.Reduction
