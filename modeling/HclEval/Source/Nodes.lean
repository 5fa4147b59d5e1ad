import HclEval.Error
import HclEval.Node.Basic
import HclEval.Source.Body

/-!
The tree of a document. Binary operations and conditionals become flat lists in the order in which
they are written; as an operand such an expression is a group. Templates become concatenations
that start with the empty text, and a directive a grouped conditional. In a setting named `type`
the words of types are type declarations wherever they stand as an operand.
-/
namespace HclEval.Source

mutual

def Expr.typeMarker? : Expr → Option TypeMarker
  | .variable word =>
    ((TypeKind.ofKeyword? word).or (TypeKind.ofConstructor? word)).map .bare
  | .call name arguments _ => do
    elementMarker? (← TypeKind.ofConstructor? name) arguments
  | _ => none
termination_by structural expr => expr

def elementMarker? (kind : TypeKind) : List Expr → Option TypeMarker
  | [] => some (.bare kind)
  | element :: rest => if rest.isEmpty then element.typeMarker?.map (.applied kind) else none

end

/-- What the tree of an expression depends on: the setting it belongs to, and the tree of a
template given as text. -/
structure Scope where
  declaresType : Bool
  position : Option Position
  template : String → Except Error Node

namespace Scope

def unsupported {α : Type} (scope : Scope) (what : String) : Except Error α :=
  .error (.unsupported what scope.position)

end Scope

def Expr.isCompound : Expr → Bool
  | .binary .. | .unary .. | .conditional .. => true
  | _ => false

def Expr.isUnary : Expr → Bool
  | .unary .. => true
  | _ => false

def Expr.asOperand (expr : Expr) (nodes : List Node) : Node :=
  match expr.isCompound, nodes with
  | false, [node] => node
  | _, nodes => .group nodes

def Expr.asRight (expr : Expr) (nodes : List Node) : List Node :=
  if expr.isUnary then [.group nodes] else nodes

/-- A base that is a variable is the first segment of a reference. -/
def Expr.asBase (expr : Expr) (nodes : List Node) : Node :=
  match expr with
  | .variable name => .segment name
  | _ => expr.asOperand nodes

/-- The tree of an entry whose key is an expression. Keys that are texts stand for themselves. -/
def keyedEntry (key : Expr) (keyNodes value : List Node) : Node :=
  match key with
  | .string name => .named name value none
  | _ => .keyed (key.asOperand keyNodes) value none

mutual

def Expr.nodes (scope : Scope) : Expr → Except Error (List Node)
  | .null => pure [.null]
  | .bool b => pure [.boolean b]
  | .number n => pure [.number n.text]
  | .string text => pure [.string text]
  | .array elements => return [.array (← operands scope elements)]
  | .object entries => return [.map (← entryNodes scope entries)]
  | .template text => return [← scope.template text]
  | .heredoc indented _ text =>
    let meant := if indented then String.ofList (unindent text.toList) else text
    return [← scope.template meant]
  | .variable name =>
    match scope.declaresType, (Expr.variable name).typeMarker? with
    | true, some marker => pure [.type marker]
    | _, _ => pure [.reference [.segment name]]
  | .traversal base accesses => do
    let baseNodes ← base.nodes scope
    return [.reference (base.asBase baseNodes :: (← accessNodes scope accesses))]
  | .call name arguments spread =>
    match scope.declaresType, (Expr.call name arguments spread).typeMarker? with
    | true, some marker => pure [.type marker]
    | _, _ => return [.call name (← operands scope arguments) spread]
  | .parens inner => return [.group (← inner.nodes scope)]
  | .conditional condition yes no => do
    let condition ← condition.nodes scope
    let yes ← yes.nodes scope
    let no ← no.nodes scope
    return condition ++ .operator .question :: yes ++ .operator .colon :: no
  | .unary symbol expr => return [.operator symbol, expr.asOperand (← expr.nodes scope)]
  | .binary left symbol right => do
    let leftNodes ← left.nodes scope
    let rightNodes ← right.nodes scope
    return leftNodes ++ .operator symbol :: right.asRight rightNodes
  | .comprehension keyVariable valueVariable collection key value condition grouping => do
    let collectionNodes ← collection.nodes scope
    let keyNode ← optionalOperand scope key
    let valueNodes ← value.nodes scope
    let conditionNode ← optionalOperand scope condition
    return [.comprehension keyVariable valueVariable (collection.asOperand collectionNodes)
      keyNode (value.asOperand valueNodes) conditionNode grouping]
termination_by structural expr => expr

def Entry.node (scope : Scope) : Entry → Except Error Node
  | .word name value => return .named name (← value.nodes scope) none
  | .keyed key value => do
    let keyNodes ← key.nodes scope
    return keyedEntry key keyNodes (← value.nodes scope)

def Access.node (scope : Scope) : Access → Except Error Node
  | .name name => pure (.segment name)
  | .index index => return .array [index.asOperand (← index.nodes scope)]
  | .position n => pure (.array [.number (toString n)])
  | .splat => scope.unsupported "splat operator"

def optionalOperand (scope : Scope) : Option Expr → Except Error (Option Node)
  | none => pure none
  | some expr => return some (expr.asOperand (← expr.nodes scope))

def operands (scope : Scope) : List Expr → Except Error (List Node)
  | [] => pure []
  | expr :: rest => do
    let nodes ← expr.nodes scope
    return expr.asOperand nodes :: (← operands scope rest)

def entryNodes (scope : Scope) : List Entry → Except Error (List Node)
  | [] => pure []
  | entry :: rest => return (← entry.node scope) :: (← entryNodes scope rest)

def accessNodes (scope : Scope) : List Access → Except Error (List Node)
  | [] => pure []
  | access :: rest => return (← access.node scope) :: (← accessNodes scope rest)

end

def Expr.node (scope : Scope) (expr : Expr) : Except Error Node :=
  return expr.asOperand (← expr.nodes scope)

def concatenation (elements : List Element) (nodes : List Node) : Node :=
  match elements with
  | [] => .string ""
  | [.literal text] => .string text
  | _ => .interpolation (.string "" :: nodes.flatMap fun node => [.operator .plus, node])

def choice (condition : List Node) (yes no : Node) : Node :=
  .group (condition ++ [.operator .question, yes, .operator .colon, no])

mutual

def Element.node (scope : Scope) : Element → Except Error Node
  | .literal text => pure (.string text)
  | .interpolation expr => expr.node scope
  | .conditional condition yes no => do
    let condition ← condition.nodes scope
    let yesNodes ← elementNodes scope yes
    return choice condition (concatenation yes yesNodes) (← branchNode scope no)
  | .loop .. => scope.unsupported "template for directive"
termination_by structural element => element

def branchNode (scope : Scope) : Option (List Element) → Except Error Node
  | none => pure (.string "")
  | some elements => return concatenation elements (← elementNodes scope elements)

def elementNodes (scope : Scope) : List Element → Except Error (List Node)
  | [] => pure []
  | element :: rest => return (← element.node scope) :: (← elementNodes scope rest)

end

def templateNode (scope : Scope) (elements : List Element) : Except Error Node :=
  return concatenation elements (← elementNodes scope elements)

/-- The scope of a setting; `depth` bounds the nesting of its templates. -/
def scopeWithin (declaresType : Bool) (position : Option Position) : (depth : Nat) → Scope
  | 0 => ⟨declaresType, position, fun _ => .error (.unsupported "malformed template" position)⟩
  | depth + 1 => ⟨declaresType, position, fun text =>
      let inner := scopeWithin declaresType position depth
      match template? expr text with
      | some elements => templateNode inner elements
      | none => inner.unsupported "malformed template"⟩

mutual

def Structure.node (source : String) : Structure → Except Error Node
  | .setting name value offset => do
    let position := Position.ofOffset source offset
    let scope := scopeWithin (name == "type") position (source.length + 1)
    return .named name (← value.nodes scope) position
  | .block names body offset =>
    return .block names (← structureNodes source body) (Position.ofOffset source offset)
termination_by structural read => read

def structureNodes (source : String) : List Structure → Except Error (List Node)
  | [] => pure []
  | read :: rest => return (← read.node source) :: (← structureNodes source rest)

end

end HclEval.Source

namespace HclEval

def readNodes (source : String) : Except Error (List Node) :=
  match Source.structures? source with
  | some read => Source.structureNodes source read
  | none => .error .malformed

/-- What there is of a document with errors: nothing of one that is no HCL, else the structures
that have a tree. -/
def readNodesLeniently (source : String) : List Node :=
  ((Source.structures? source).getD []).filterMap fun read => (read.node source).toOption

end HclEval
