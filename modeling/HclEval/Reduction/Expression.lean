import HclEval.Json.Writer
import HclEval.Number.Reader
import HclEval.Reduction.State

/-!
Evaluation of expressions, given how a single node is evaluated. A flat expression is evaluated
from left to right: there is no precedence, every operator takes the operand to its right, and
an operand of the wrong type leaves the result as it is.
-/
namespace HclEval

namespace Value

def keyText? : Value → Option String
  | string text => some text
  | number x => some x.text
  | bool b => some (bool b).text
  | _ => none

end Value

namespace Reduction

def literalValue (kind : LiteralKind) (raw : String) : Except Error Value :=
  match kind with
  | .string => .ok (.string raw)
  | .number =>
    match Number.read? raw with
    | some x => .ok (.number x)
    | none => .error (.invalidNumber raw)
  | .boolean => .ok (.bool (raw == "true"))
  | .null => .ok .null

def compareWith (operator : Operator) : Ordering → Bool
  | .lt => operator == .less || operator == .lessEqual
  | .eq => operator == .lessEqual || operator == .greaterEqual
  | .gt => operator == .greater || operator == .greaterEqual

/-- Comparison of two numbers; any other left operand is kept. -/
def applyOrder (operator : Operator) : Value → Value → Value
  | .number x, .number y =>
    match x.compare y with
    | some ordering => .bool (compareWith operator ordering)
    | none => .bool false
  | left, _ => left

def applyPlus : Value → Value → Value
  | .string left, right => if right.isNull then .string left else .string (left ++ right.text)
  | .number x, .number y => .number (x.add y)
  | .null, right => right
  | left, _ => left

def applyMinus : Value → Value → Value
  | .number x, .number y => .number (x.sub y)
  | .null, .number y => .number y.neg
  | left, _ => left

def applyArithmetic (f : Number → Number → Number) : Value → Value → Value
  | .number x, .number y => .number (f x y)
  | left, _ => left

def apply (operator : Operator) (left right : Value) : Value :=
  match operator with
  | .equal => .bool (left == right)
  | .notEqual => .bool (left != right)
  | .greater | .greaterEqual | .less | .lessEqual => applyOrder operator left right
  | .plus => applyPlus left right
  | .minus => applyMinus left right
  | .multiply => applyArithmetic .mul left right
  | .divide => applyArithmetic .div left right
  | .modulo => applyArithmetic .rem left right
  | .and | .or | .question | .colon | .not => left

def unary? : Node → Option Operator
  | .operator .not => some .not
  | .operator .minus => some .minus
  | .operator .plus => some .plus
  | _ => none

def applyUnary (operator : Operator) (operand : Value) : Value :=
  match operator with
  | .not => .bool !operand.truthy
  | _ => apply operator .null operand

def endsLogical : Node → Bool
  | .operator operator => operator.endsLogicalOperand
  | _ => false

/-- What follows the `:` that belongs to the `?` just passed, `depth` others being open. -/
def skipBranch : Nat → List Node → List Node
  | _, [] => []
  | depth, .operator .question :: rest => skipBranch (depth + 1) rest
  | 0, .operator .colon :: rest => rest
  | depth + 1, .operator .colon :: rest => skipBranch depth rest
  | depth, _ :: rest => skipBranch depth rest

def afterOperand : List Node → List Node
  | [] => []
  | node :: rest => if (unary? node).isSome then afterOperand rest else rest

theorem length_skipBranch (depth : Nat) (nodes : List Node) :
    (skipBranch depth nodes).length ≤ nodes.length := by
  fun_induction skipBranch depth nodes <;> simp_all <;> omega

theorem length_afterOperand (nodes : List Node) :
    (afterOperand nodes).length ≤ nodes.length := by
  fun_induction afterOperand nodes <;> simp_all
  omega

variable (reduce : Node → Eval Value)

/-- The operand that a list starts with, the operators before it included; `null` if there is
none. -/
def operand : List Node → Eval Value
  | [] => pure .null
  | node :: rest =>
    match unary? node with
    | some operator => do return applyUnary operator (← operand rest)
    | none => reduce node

def evaluateFrom (result : Value) : List Node → Eval Value
  | [] => pure result
  | .operator .colon :: _ => pure result
  | .operator .question :: rest =>
    if result.truthy then evaluateFrom .null rest
    else evaluateFrom .null (skipBranch 0 rest)
  | .operator .and :: rest => do
    let right ← evaluateFrom .null (rest.takeWhile (!endsLogical ·))
    evaluateFrom (.bool (result.truthy && right.truthy)) (rest.dropWhile (!endsLogical ·))
  | .operator .or :: rest => do
    let right ← evaluateFrom .null (rest.takeWhile (!endsLogical ·))
    evaluateFrom (.bool (result.truthy || right.truthy)) (rest.dropWhile (!endsLogical ·))
  | .operator .not :: rest => do
    let right ← operand reduce rest
    evaluateFrom (.bool !right.truthy) (afterOperand rest)
  | .operator operator :: rest => do
    let right ← operand reduce rest
    evaluateFrom (apply operator result right) (afterOperand rest)
  | node :: rest => do
    evaluateFrom (← reduce node) rest
termination_by nodes => nodes.length
decreasing_by
  all_goals simp only [List.length_cons]
  · omega
  · have := length_skipBranch 0 rest
    omega
  · have := (List.takeWhile_prefix (l := rest) (!endsLogical ·)).length_le
    omega
  · have := (List.dropWhile_suffix (l := rest) (!endsLogical ·)).length_le
    omega
  · have := (List.takeWhile_prefix (l := rest) (!endsLogical ·)).length_le
    omega
  · have := (List.dropWhile_suffix (l := rest) (!endsLogical ·)).length_le
    omega
  · have := length_afterOperand rest
    omega
  · have := length_afterOperand rest
    omega
  · omega

def evaluate (nodes : List Node) : Eval Value := evaluateFrom reduce .null nodes

/-- Evaluates arguments in order, and stops at the first that is a reference leading nowhere. -/
def arguments? : List Node → Eval (Option (List Value))
  | [] => pure (some [])
  | node :: rest => do
    let value ← reduce node
    if value.isUnresolved then pure none
    else return (← arguments? rest).map (value :: ·)

def spread? (values : List Value) : Option (List Value) := do
  let .list items ← values.getLast? | none
  return values.dropLast ++ items

/-- A call of an unknown function, or with an argument that leads nowhere, is `null`. -/
def callFunction (setting : Setting) (name : String) (nodes : List Node) (spread : Bool) :
    Eval Value := do
  let some values ← arguments? reduce nodes | return .null
  let some values := if spread then spread? values else some values | return .null
  let some function := setting.functions.get? name | return .null
  let before := (← get).calls
  Eval.record (.function name values)
  match function before values with
  | .ok value => pure value
  | .error cause => Eval.fail (.functionFailed name cause)

def items? : Value → Option (List (Value × Value))
  | .list items => some (items.zipIdx.map fun (value, i) => (.ofNat i, value))
  | .map entries => some (entries.map fun (key, value) => (.string key, value))
  | _ => none

def bindings (keyVariable : Option String) (valueVariable : String) (key value : Value) :
    Table Value :=
  Table.insert (match keyVariable with | some name => [(name, key)] | none => [])
    valueVariable value

def holds (condition : Option Node) : Eval Bool :=
  match condition with
  | none => pure true
  | some condition => return (← reduce condition).truthy

def listItem (value : Node) (condition : Option Node) : Eval (Option Value) := do
  if ← holds reduce condition then return some (← reduce value) else return none

/-- One round of a `for` expression that makes an object; a key that is no text drops the round. -/
def objectItem (key value : Node) (condition : Option Node) :
    Eval (Option (String × Value)) := do
  if ← holds reduce condition then
    match (← reduce key).keyText? with
    | some key => return some (key, ← reduce value)
    | none => return none
  else return none

def groupEntries (entries : List (String × Value)) : Table Value :=
  entries.foldl (fun table (key, value) =>
    match table.get? key with
    | some (.list values) => table.insert key (.list (values ++ [value]))
    | some _ => table
    | none => table.insert key (.list [value])) []

/-- A `for` expression over anything but a list or a map is `null`. -/
def comprehend (keyVariable : Option String) (valueVariable : String) (collection : Node)
    (key : Option Node) (value : Node) (condition : Option Node) (grouping : Bool) :
    Eval Value := do
  let some items := items? (← reduce collection) | return .null
  let inScope {α : Type} (round : Eval α) (item : Value × Value) : Eval α :=
    Eval.withScope (bindings keyVariable valueVariable item.1 item.2) round
  match key with
  | none =>
    let values ← items.mapM (inScope (listItem reduce value condition))
    return .list (values.filterMap id)
  | some key =>
    let entries ← items.mapM (inScope (objectItem reduce key value condition))
    let entries := entries.filterMap id
    return .map (if grouping then groupEntries entries else Table.ofEntries entries)

end Reduction
end HclEval
