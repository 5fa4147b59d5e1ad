import HclEval.Reduction.Reference
import HclEval.Reduction.Structure

/-!
Evaluation of a document in two passes: the first builds its shape, the second replaces every
tree left in it by its value. Nodes are evaluated down to a depth of nesting, which counts what
is reached through a node, a value or the document; an evaluation that leads deeper ends as
exhausted. `run` allows a fixed nesting, and no more, to what functions and lookups answer with;
`runWithin` takes any depth.
-/
namespace HclEval.Reduction

def reduceStep (setting : Setting) (reduce : Node → Eval Value) (depth : Nat) :
    Node → Eval Value
  | .named _ children _ | .keyed _ children _ | .group children | .interpolation children =>
    evaluate reduce children
  | .block names children position => do
    reduceValue reduce (← structureValue reduce (.block names children position))
  | .map entries => do
    reduceValue reduce (.map (← (structureEach reduce entries).table))
  | .array elements =>
    if elements.isEmpty then pure .null else return .list (← elements.mapM reduce)
  | .literal kind raw => Eval.ofExcept (literalValue kind raw)
  | .type marker => pure (.type marker)
  | .reference segments => resolveReference reduce setting depth segments
  | .call name arguments spread => callFunction reduce setting name arguments spread
  | .comprehension keyVariable valueVariable collection key value condition grouping =>
    comprehend reduce keyVariable valueVariable collection key value condition grouping
  | .operator _ | .segment _ => pure .null

def reduceNode (setting : Setting) : (depth : Nat) → Node → Eval Value
  | 0, _ => throw .exhausted
  | depth + 1, node => reduceStep setting (reduceNode setting depth) depth node

/-- Top level entries that come before all others, in this order. -/
def namespaces : List String := ["locals", "variable", "data"]

def resolutionOrder (document : Document) : List String :=
  namespaces.filter (Table.contains document ·) ++
    (Table.keys document).filter (!namespaces.contains ·)

def resolveDocument (setting : Setting) (depth : Nat) : Eval Unit := do
  (resolutionOrder (← get).document).forM fun key =>
    settle (reduceNode setting depth) depth [.key key]

/-- The first pass. It sees an empty document, and its result becomes the document even if it
ends in an error. -/
def structureDocument (setting : Setting) (depth : Nat) (nodes : List Node) : Eval Unit :=
  ExceptT.mk do
    let (result, document) ← (structureEach (reduceNode setting depth) nodes).run.run []
    modify fun state => { state with document }
    return result

def reduceDocument (setting : Setting) (depth : Nat) (nodes : List Node) : Eval Unit := do
  structureDocument setting depth nodes
  resolveDocument setting depth

def variablesSize (vars : Table Value) : Nat := (Value.map vars).size

/-- Every reference in progress accounts for the nesting of all nodes and variables, and for 1024
levels of what functions and lookups answer with. -/
def depthFor (setting : Setting) (nodes : List Node) : Nat :=
  (setting.maxDepth + 2) * (Node.sizeAll nodes + variablesSize setting.vars + 1024)

/-- Runs both passes after the given calls. The state holds the document also after an error. -/
def runWithin (setting : Setting) (depth : Nat) (calls : List Call) (nodes : List Node) :
    Except Stop Unit × State :=
  (reduceDocument setting depth nodes).run { calls }

def run (setting : Setting) (calls : List Call) (nodes : List Node) : Except Stop Unit × State :=
  runWithin setting (depthFor setting nodes) calls nodes

end HclEval.Reduction
