import HclEval.Proofs.Trees
import HclEval.Reduction.Expression
import HclEval.Source.Nodes

/-!
What the trees of expressions look like. A flat list is made of operands and of operators between
them and before them, and of all operands only arrays and objects have operands below them that may
be taken out one by one: the elements, and the values of the entries.
-/
namespace HclEval

namespace Operator

def isUnary : Operator → Bool
  | not | minus => true
  | _ => false

def isBinary : Operator → Bool
  | question | colon | not => false
  | _ => true

end Operator

namespace Node

def isOperator : Node → Bool
  | operator _ => true
  | _ => false

/-- An operand that is evaluated as a whole, if it is evaluated. -/
def isAtom : Node → Bool
  | literal .. | type _ | reference _ | call .. | group _ | interpolation _ | comprehension .. =>
    true
  | _ => false

theorem isOperator_of_isAtom {node : Node} (h : node.isAtom = true) : node.isOperator = false := by
  cases node <;> first | rfl | cases h

def isPlain : Node → Bool
  | literal .. | type _ | map _ | array _ => true
  | _ => false

theorem isOperator_of_isPlain {node : Node} (h : node.isPlain = true) :
    node.isOperator = false := by
  cases node <;> first | rfl | cases h

def isBlock : Node → Bool
  | block .. => true
  | _ => false

def value : Node → List Node
  | named _ children _ | keyed _ children _ => children
  | _ => []

def isEntry : Node → Bool
  | named .. | keyed .. => true
  | _ => false

/-- The flat lists of expressions: conditionals, and operators with the operands they need. -/
inductive Flat : List Node → Prop
  | operand {node : Node} : node.isOperator = false → Flat [node]
  | unary {symbol : Operator} {node : Node} :
      symbol.isUnary = true → node.isOperator = false → Flat [.operator symbol, node]
  | binary {symbol : Operator} {left right : List Node} :
      symbol.isBinary = true → Flat left → Flat right → Flat (left ++ .operator symbol :: right)
  | conditional {condition yes no : List Node} : Flat condition → Flat yes → Flat no →
      Flat (condition ++ .operator .question :: (yes ++ .operator .colon :: no))

/-- The operands of expressions: arrays hold operands, and objects hold entries whose values are
made of operands. -/
inductive Operand : Node → Prop
  | atom {node : Node} : node.isAtom = true → Operand node
  | array {elements : List Node} : (∀ element ∈ elements, Operand element) →
      Operand (.array elements)
  | map {entries : List Node} : (∀ entry ∈ entries, entry.isEntry = true) →
      (∀ entry ∈ entries, ∀ child ∈ entry.value, child.isOperator = false → Operand child) →
        Operand (.map entries)

namespace Operand

theorem element {elements : List Node} (h : Operand (.array elements)) :
    ∀ element ∈ elements, element.Operand := by
  cases h with
  | atom h => cases h
  | array h => exact h

theorem entry {entries : List Node} (h : Operand (.map entries)) :
    ∀ entry ∈ entries, entry.isEntry = true := by
  cases h with
  | atom h => cases h
  | map h _ => exact h

theorem value {entries : List Node} (h : Operand (.map entries)) :
    ∀ entry ∈ entries, ∀ child ∈ entry.value, child.isOperator = false → child.Operand := by
  cases h with
  | atom h => cases h
  | map _ h => exact h

end Operand

theorem not_isBlock_of_operand {node : Node} (h : node.isOperator = false → node.Operand) :
    node.isBlock = false := by
  cases node
  case block names children position =>
    cases h rfl with
    | atom h => cases h
  all_goals rfl

end Node

namespace Reduction

theorem evaluate_singleton (reduce : Node → Eval Value) {node : Node}
    (h : node.isOperator = false) : evaluate reduce [node] = reduce node := by
  cases node with
  | operator symbol => cases h
  | _ => simp [evaluate, evaluateFrom]

theorem evaluate_string_cons (reduce : Node → Eval Value) (text : String) (rest : List Node) :
    evaluate reduce (.string text :: rest) =
      reduce (.string text) >>= fun v => evaluateFrom reduce v rest := by
  simp [evaluate, evaluateFrom, Node.string]

end Reduction

namespace Source

/-- Outside of its operands an expression has the operators that source text has there. -/
def Expr.Regular : Expr → Prop
  | .binary left symbol right => left.Regular ∧ symbol.isBinary = true ∧ right.Regular
  | .unary symbol _ => symbol.isUnary = true
  | .conditional condition yes no => condition.Regular ∧ yes.Regular ∧ no.Regular
  | _ => True
termination_by structural expr => expr

/-- The trees of templates are atoms. -/
def Scope.AtomicTemplates (scope : Scope) : Prop :=
  ∀ text node, scope.template text = .ok node → node.isAtom = true

theorem exists_of_bind_ok {α β : Type} {a : Except Error α} {f : α → Except Error β} {y : β}
    (h : a >>= f = .ok y) : ∃ x, a = .ok x ∧ f x = .ok y := by
  cases a with
  | error e => cases h
  | ok x => exact ⟨x, rfl, h⟩

theorem isAtom_concatenation (elements : List Element) (nodes : List Node) :
    (concatenation elements nodes).isAtom = true := by
  unfold concatenation
  split <;> rfl

theorem atomicTemplates_scopeWithin (declaresType : Bool) (position : Option Position)
    (depth : ℕ) : (scopeWithin declaresType position depth).AtomicTemplates := by
  intro text node h
  cases depth with
  | zero => cases h
  | succ depth =>
    simp only [scopeWithin] at h
    split at h
    · obtain ⟨nodes, -, h⟩ := exists_of_bind_ok h
      cases h
      exact isAtom_concatenation _ nodes
    · cases h

theorem flat_asRight {expr : Expr} {nodes : List Node} (h : Node.Flat nodes) :
    Node.Flat (expr.asRight nodes) := by
  unfold Expr.asRight
  split
  · exact .operand rfl
  · exact h

section
variable {scope : Scope} (hscope : scope.AtomicTemplates)
include hscope

theorem exists_node_of_not_isCompound {expr : Expr} {nodes : List Node}
    (hexpr : expr.isCompound = false) (h : expr.nodes scope = .ok nodes) :
    ∃ node, nodes = [node] ∧ node.isOperator = false := by
  cases expr <;> simp only [Expr.isCompound, Bool.true_eq_false] at hexpr <;>
    simp only [Expr.nodes] at h
  case template | heredoc =>
    obtain ⟨node, hnode, h⟩ := exists_of_bind_ok h
    cases h
    exact ⟨node, rfl, Node.isOperator_of_isAtom (hscope _ _ hnode)⟩
  case «variable» | call =>
    split at h
    · cases h
      exact ⟨_, rfl, rfl⟩
    · first
      | cases h
        exact ⟨_, rfl, rfl⟩
      | obtain ⟨_, -, h⟩ := exists_of_bind_ok h
        cases h
        exact ⟨_, rfl, rfl⟩
  case null | bool | number | string =>
    cases h
    exact ⟨_, rfl, rfl⟩
  case array | object | parens =>
    obtain ⟨_, -, h⟩ := exists_of_bind_ok h
    cases h
    exact ⟨_, rfl, rfl⟩
  case traversal =>
    obtain ⟨_, -, h⟩ := exists_of_bind_ok h
    obtain ⟨_, -, h⟩ := exists_of_bind_ok h
    cases h
    exact ⟨_, rfl, rfl⟩
  case comprehension =>
    obtain ⟨_, -, h⟩ := exists_of_bind_ok h
    obtain ⟨_, -, h⟩ := exists_of_bind_ok h
    obtain ⟨_, -, h⟩ := exists_of_bind_ok h
    obtain ⟨_, -, h⟩ := exists_of_bind_ok h
    cases h
    exact ⟨_, rfl, rfl⟩

theorem isOperator_asOperand {expr : Expr} {nodes : List Node}
    (h : expr.nodes scope = .ok nodes) : (expr.asOperand nodes).isOperator = false := by
  cases hexpr : expr.isCompound with
  | true => simp [Expr.asOperand, hexpr, Node.isOperator]
  | false =>
    obtain ⟨node, rfl, hnode⟩ := exists_node_of_not_isCompound hscope hexpr h
    simpa [Expr.asOperand, hexpr] using hnode

theorem flat_nodes (expr : Expr) {nodes : List Node} (hexpr : expr.Regular)
    (h : expr.nodes scope = .ok nodes) : Node.Flat nodes := by
  cases hcompound : expr.isCompound with
  | false =>
    obtain ⟨node, rfl, hnode⟩ := exists_node_of_not_isCompound hscope hcompound h
    exact .operand hnode
  | true =>
    match expr, hcompound with
    | .unary symbol operand, _ =>
      simp only [Expr.nodes] at h
      obtain ⟨inner, hinner, h⟩ := exists_of_bind_ok h
      cases h
      exact .unary hexpr (isOperator_asOperand hscope hinner)
    | .binary left symbol right, _ =>
      obtain ⟨hleft, hsymbol, hright⟩ := hexpr
      simp only [Expr.nodes] at h
      obtain ⟨leftNodes, hl, h⟩ := exists_of_bind_ok h
      obtain ⟨rightNodes, hr, h⟩ := exists_of_bind_ok h
      cases h
      exact .binary hsymbol (flat_nodes left hleft hl) (flat_asRight (flat_nodes right hright hr))
    | .conditional condition yes no, _ =>
      obtain ⟨hcondition, hyes, hno⟩ := hexpr
      simp only [Expr.nodes] at h
      obtain ⟨conditionNodes, hc, h⟩ := exists_of_bind_ok h
      obtain ⟨yesNodes, hy, h⟩ := exists_of_bind_ok h
      obtain ⟨noNodes, hn, h⟩ := exists_of_bind_ok h
      cases h
      simpa using Node.Flat.conditional (flat_nodes condition hcondition hc)
        (flat_nodes yes hyes hy) (flat_nodes no hno hn)
termination_by structural expr

theorem operand_asOperand {expr : Expr} {nodes : List Node} (h : expr.nodes scope = .ok nodes)
    (hnodes : ∀ node ∈ nodes, node.isOperator = false → node.Operand) :
    (expr.asOperand nodes).Operand := by
  cases hexpr : expr.isCompound with
  | true => simpa [Expr.asOperand, hexpr] using .atom rfl
  | false =>
    obtain ⟨node, rfl, hnode⟩ := exists_node_of_not_isCompound hscope hexpr h
    simpa [Expr.asOperand, hexpr] using hnodes node (List.mem_singleton_self node) hnode

end

section
variable {scope : Scope}

mutual

theorem operand_of_mem_nodes (hscope : scope.AtomicTemplates) :
    ∀ (expr : Expr) {nodes : List Node}, expr.nodes scope = .ok nodes →
      ∀ node ∈ nodes, node.isOperator = false → node.Operand
  | .null, nodes, h | .bool _, nodes, h | .number _, nodes, h | .string _, nodes, h => by
    cases h
    simpa [Node.null, Node.boolean, Node.number, Node.string] using fun _ => .atom rfl
  | .template _, nodes, h | .heredoc _ _ _, nodes, h => by
    obtain ⟨node, hnode, h⟩ := exists_of_bind_ok h
    cases h
    simpa using fun _ => .atom (hscope _ _ hnode)
  | .variable _, nodes, h => by
    simp only [Expr.nodes] at h
    split at h <;> cases h <;> simpa using fun _ => .atom rfl
  | .call _ _ _, nodes, h => by
    simp only [Expr.nodes] at h
    split at h
    · cases h
      simpa using fun _ => .atom rfl
    · obtain ⟨_, -, h⟩ := exists_of_bind_ok h
      cases h
      simpa using fun _ => .atom rfl
  | .traversal _ _, nodes, h => by
    obtain ⟨_, -, h⟩ := exists_of_bind_ok h
    obtain ⟨_, -, h⟩ := exists_of_bind_ok h
    cases h
    simpa using fun _ => .atom rfl
  | .parens _, nodes, h => by
    obtain ⟨_, -, h⟩ := exists_of_bind_ok h
    cases h
    simpa using fun _ => .atom rfl
  | .comprehension .., nodes, h => by
    obtain ⟨_, -, h⟩ := exists_of_bind_ok h
    obtain ⟨_, -, h⟩ := exists_of_bind_ok h
    obtain ⟨_, -, h⟩ := exists_of_bind_ok h
    obtain ⟨_, -, h⟩ := exists_of_bind_ok h
    cases h
    simpa using fun _ => .atom rfl
  | .array elements, nodes, h => by
    obtain ⟨inner, hinner, h⟩ := exists_of_bind_ok h
    cases h
    simpa using fun _ => .array (operand_of_mem_operands hscope elements hinner)
  | .object entries, nodes, h => by
    obtain ⟨inner, hinner, h⟩ := exists_of_bind_ok h
    cases h
    have hentries := entry_of_mem_entryNodes hscope entries hinner
    simpa using fun _ => .map (fun entry hentry => (hentries entry hentry).1)
      fun entry hentry => (hentries entry hentry).2
  | .unary _ operand, nodes, h => by
    obtain ⟨inner, hinner, h⟩ := exists_of_bind_ok h
    cases h
    have hoperand := operand_asOperand hscope hinner (operand_of_mem_nodes hscope operand hinner)
    simpa [Node.isOperator] using fun _ => hoperand
  | .binary left symbol right, nodes, h => by
    obtain ⟨leftNodes, hl, h⟩ := exists_of_bind_ok h
    obtain ⟨rightNodes, hr, h⟩ := exists_of_bind_ok h
    cases h
    intro node hnode hoperator
    rcases List.mem_append.mp hnode with hnode | hnode
    · exact operand_of_mem_nodes hscope left hl node hnode hoperator
    rcases List.mem_cons.mp hnode with rfl | hnode
    · cases hoperator
    unfold Expr.asRight at hnode
    split at hnode
    · cases List.mem_singleton.mp hnode
      exact .atom rfl
    · exact operand_of_mem_nodes hscope right hr node hnode hoperator
  | .conditional condition yes no, nodes, h => by
    obtain ⟨conditionNodes, hc, h⟩ := exists_of_bind_ok h
    obtain ⟨yesNodes, hy, h⟩ := exists_of_bind_ok h
    obtain ⟨noNodes, hn, h⟩ := exists_of_bind_ok h
    cases h
    intro node hnode hoperator
    simp only [List.append_assoc, List.cons_append, List.mem_append, List.mem_cons] at hnode
    rcases hnode with hnode | rfl | hnode | rfl | hnode
    · exact operand_of_mem_nodes hscope condition hc node hnode hoperator
    · cases hoperator
    · exact operand_of_mem_nodes hscope yes hy node hnode hoperator
    · cases hoperator
    · exact operand_of_mem_nodes hscope no hn node hnode hoperator
termination_by structural expr => expr

theorem operand_of_mem_entry (hscope : scope.AtomicTemplates) :
    ∀ (entry : Entry) {node : Node}, entry.node scope = .ok node → node.isEntry = true ∧
      ∀ child ∈ node.value, child.isOperator = false → child.Operand
  | .word _ value, node, h => by
    obtain ⟨children, hchildren, h⟩ := exists_of_bind_ok h
    cases h
    exact ⟨rfl, operand_of_mem_nodes hscope value hchildren⟩
  | .keyed key value, node, h => by
    obtain ⟨keyNodes, -, h⟩ := exists_of_bind_ok h
    obtain ⟨children, hchildren, h⟩ := exists_of_bind_ok h
    cases h
    unfold keyedEntry
    split <;> exact ⟨rfl, operand_of_mem_nodes hscope value hchildren⟩

theorem operand_of_mem_operands (hscope : scope.AtomicTemplates) :
    ∀ (exprs : List Expr) {nodes : List Node}, operands scope exprs = .ok nodes →
      ∀ node ∈ nodes, node.Operand
  | [], nodes, h => by
    cases h
    simp
  | expr :: rest, nodes, h => by
    obtain ⟨exprNodes, hexpr, h⟩ := exists_of_bind_ok h
    obtain ⟨restNodes, hrest, h⟩ := exists_of_bind_ok h
    cases h
    intro node hnode
    rcases List.mem_cons.mp hnode with rfl | hnode
    · exact operand_asOperand hscope hexpr (operand_of_mem_nodes hscope expr hexpr)
    · exact operand_of_mem_operands hscope rest hrest node hnode

theorem entry_of_mem_entryNodes (hscope : scope.AtomicTemplates) :
    ∀ (entries : List Entry) {nodes : List Node}, entryNodes scope entries = .ok nodes →
      ∀ node ∈ nodes, node.isEntry = true ∧
        ∀ child ∈ node.value, child.isOperator = false → child.Operand
  | [], nodes, h => by
    cases h
    simp
  | entry :: rest, nodes, h => by
    obtain ⟨entryNode, hentry, h⟩ := exists_of_bind_ok h
    obtain ⟨restNodes, hrest, h⟩ := exists_of_bind_ok h
    cases h
    intro node hnode
    rcases List.mem_cons.mp hnode with rfl | hnode
    · exact operand_of_mem_entry hscope entry hentry
    · exact entry_of_mem_entryNodes hscope rest hrest node hnode

end

theorem operand_node (hscope : scope.AtomicTemplates) (expr : Expr) {node : Node}
    (h : expr.node scope = .ok node) : node.Operand := by
  obtain ⟨nodes, hnodes, h⟩ := exists_of_bind_ok h
  cases h
  exact operand_asOperand hscope hnodes (operand_of_mem_nodes hscope expr hnodes)

end

end Source
end HclEval
