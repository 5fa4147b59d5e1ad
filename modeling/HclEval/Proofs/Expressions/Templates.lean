import HclEval.Proofs.Expressions.Conditionals
import HclEval.Reduction.Basic

/-!
Templates of literal texts and interpolations. They are evaluated as a concatenation that starts
with the empty text, so whatever the interpolated values are, each only adds to a text, and in
the end there is one.
-/
namespace HclEval

open Source Reduction

/-- What a value adds to a text: `null` adds nothing, lists and maps add their JSON text. -/
def Value.contribution : Value → String
  | .null => ""
  | .list items => Json.write (.list items)
  | .map entries => Json.write (.map entries)
  | value => value.scalarText

theorem Value.contribution_eq (v : Value) : v.contribution = if v.isNull then "" else v.text := by
  cases v <;> rfl

namespace Source

def Element.isText : Element → Bool
  | .literal _ | .interpolation _ => true
  | .conditional .. | .loop .. => false

def Element.interpolated? : Element → Option Expr
  | .interpolation expr => some expr
  | _ => none

def interpolations (elements : List Element) : List Expr :=
  elements.filterMap Element.interpolated?

def filledIn : List Element → List Value → String
  | .literal text :: rest, values => text ++ filledIn rest values
  | .interpolation _ :: rest, value :: values => value.contribution ++ filledIn rest values
  | _, _ => ""

theorem concatenation_of_interpolations {elements : List Element} (nodes : List Node)
    (h : interpolations elements ≠ []) :
    concatenation elements nodes =
      .interpolation (.string "" :: nodes.flatMap fun node => [.operator .plus, node]) := by
  unfold concatenation
  split
  · exact absurd rfl h
  · exact absurd rfl h
  · rfl

theorem operands_ne_nil {scope : Scope} {exprs : List Expr} {nodes : List Node}
    (h : operands scope exprs = .ok nodes) (hne : exprs ≠ []) : nodes ≠ [] := by
  cases exprs with
  | nil => exact absurd rfl hne
  | cons expr rest =>
    obtain ⟨exprNodes, -, h⟩ := exists_of_bind_ok h
    obtain ⟨restNodes, -, h⟩ := exists_of_bind_ok h
    cases h
    exact List.cons_ne_nil _ _

end Source

namespace Reduction

theorem applyPlus_string (text : String) (v : Value) :
    applyPlus (.string text) v = .string (text ++ v.contribution) := by
  rw [Value.contribution_eq, applyPlus]
  split <;> simp

theorem evaluateFrom_string_plus (reduce : Node → Eval Value) (text : String) {node : Node}
    (hnode : node.isOperator = false) (rest : List Node) :
    evaluateFrom reduce (.string text) (.operator .plus :: node :: rest) =
      reduce node >>= fun v => evaluateFrom reduce (.string (text ++ v.contribution)) rest := by
  have hunary : unary? node = none := unary?_of_isOperator_eq_false hnode
  simp [evaluateFrom, operand, afterOperand, hunary, apply, applyPlus_string]

theorem exists_operands {scope : Scope} (hscope : scope.AtomicTemplates) {elements : List Element}
    (helements : ∀ element ∈ elements, element.isText = true) {nodes : List Node}
    (h : elementNodes scope elements = .ok nodes) :
    ∃ inner, operands scope (interpolations elements) = .ok inner ∧
      ∀ reduce : Node → Eval Value,
        (∀ text, reduce (.string text) = pure (.string text)) → ∀ before,
          evaluateFrom reduce (.string before)
            (nodes.flatMap fun node => [.operator .plus, node]) = do
              return .string (before ++ filledIn elements (← inner.mapM reduce)) := by
  induction elements generalizing nodes with
  | nil =>
    cases h
    refine ⟨[], rfl, fun reduce _ before => ?_⟩
    simp [evaluateFrom, filledIn]
  | cons element rest ih =>
    obtain ⟨helement, hrest⟩ := List.forall_mem_cons.mp helements
    obtain ⟨node, hnode, h⟩ := exists_of_bind_ok h
    obtain ⟨restNodes, hrestNodes, h⟩ := exists_of_bind_ok h
    cases h
    obtain ⟨inner, hinner, hall⟩ := ih hrest hrestNodes
    cases element with
    | literal text =>
      cases hnode
      refine ⟨inner, hinner, fun reduce hreduce before => ?_⟩
      have hoperand : (Node.string text).isOperator = false := rfl
      simp only [List.flatMap_cons, List.cons_append, List.nil_append,
        evaluateFrom_string_plus reduce before hoperand, hreduce, hall reduce hreduce, pure_bind,
        filledIn, Value.contribution, Value.scalarText, String.append_assoc]
    | interpolation expr =>
      obtain ⟨exprNodes, hexpr, hnode⟩ := exists_of_bind_ok hnode
      cases hnode
      refine ⟨expr.asOperand exprNodes :: inner, ?_, fun reduce hreduce before => ?_⟩
      · have hoperands : operands scope (expr :: interpolations rest) =
            .ok (expr.asOperand exprNodes :: inner) := by
          simp only [operands, hexpr, hinner]
          rfl
        exact hoperands
      · simp only [List.flatMap_cons, List.cons_append, List.nil_append,
          evaluateFrom_string_plus reduce before (isOperator_asOperand hscope hexpr),
          hall reduce hreduce, List.mapM_cons, bind_assoc, pure_bind, filledIn,
          String.append_assoc]
    | conditional _ _ _ => cases helement
    | loop _ _ _ _ => cases helement

end Reduction

/-- A template of texts and interpolations evaluates the interpolated expressions once each, from
left to right and up to the first error, and comes to a text: its parts in order, with what each
value adds in the place of its expression. -/
theorem template_concatenates {scope : Scope} (hscope : scope.AtomicTemplates)
    {elements : List Element} (helements : ∀ element ∈ elements, element.isText = true)
    (hne : interpolations elements ≠ []) {node : Node}
    (hnode : templateNode scope elements = .ok node) :
    ∃ inner, operands scope (interpolations elements) = .ok inner ∧
      ∀ setting depth, reduceNode setting (depth + 1) node = do
        return .string (filledIn elements (← inner.mapM (reduceNode setting depth))) := by
  obtain ⟨nodes, hnodes, hnode⟩ := exists_of_bind_ok hnode
  cases hnode
  obtain ⟨inner, hinner, hall⟩ := exists_operands hscope helements hnodes
  refine ⟨inner, hinner, fun setting depth => ?_⟩
  have hstart : reduceNode setting (depth + 1) (concatenation elements nodes) =
      reduceNode setting depth (.string "") >>= fun v =>
        evaluateFrom (reduceNode setting depth) v
          (nodes.flatMap fun node => [.operator .plus, node]) := by
    rw [concatenation_of_interpolations nodes hne, reduceNode, reduceStep, evaluate_string_cons]
  rw [hstart]
  cases depth with
  | zero =>
    -- nothing can be evaluated, neither the text in front nor the first interpolation
    obtain ⟨first, rest, rfl⟩ := List.exists_cons_of_ne_nil (operands_ne_nil hinner hne)
    rw [List.mapM_cons]
    rfl
  | succ depth =>
    have hstring (text : String) :
        reduceNode setting (depth + 1) (.string text) = pure (.string text) := rfl
    simp only [hstring, pure_bind, hall _ hstring, String.empty_append]

/-- `"n: ${f()}${null} ${["a", null]}"` -/
def mixedTemplate : List Element :=
  [.literal "n: ", .interpolation (.call "f" [] false), .interpolation .null, .literal " ",
    .interpolation (.array [.string "a", .null])]

theorem template_concatenates_mixed :
    ∃ node, templateNode (scopeWithin false none 0) mixedTemplate = .ok node ∧
      (reduceNode ⟨[("f", fun _ _ => .ok (.bool true))], [], [], 8⟩ 3 node).outcome {} =
        (.ok (.string "n: true [\"a\",null]"), { calls := [.function "f" []] }) := by
  have htexts : ∀ element ∈ mixedTemplate, element.isText = true := by
    simp [mixedTemplate, Element.isText]
  have hinterpolations : interpolations mixedTemplate ≠ [] := by
    simp [mixedTemplate, interpolations, Element.interpolated?]
  refine ⟨_, rfl, ?_⟩
  obtain ⟨inner, hinner, hall⟩ := template_concatenates (atomicTemplates_scopeWithin false none 0)
    htexts hinterpolations rfl
  cases hinner
  rw [hall]
  simp only [List.mapM_cons, List.mapM_nil]
  rfl

end HclEval
