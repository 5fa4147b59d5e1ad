import HclEval.Proofs.Expressions.Conditionals
import HclEval.Session

/-!
The `if` directives of templates. The flat list of the condition is followed by the `?` and the two
templates without parentheses around it. A condition that has a conditional of its own therefore
ends at that one's `:` where its first branch is taken, and the templates are never looked at; in
every other evaluation the directive comes to the template that its condition selects.
-/
namespace HclEval

open Source

namespace Node

theorem Flat.exists_conditional {nodes : List Node} (h : Flat nodes)
    (hquestion : .operator .question ∈ nodes) :
    ∃ condition yes no, Flat condition ∧ .operator .question ∉ condition ∧ Flat yes ∧ Flat no ∧
      nodes = condition ++ .operator .question :: (yes ++ .operator .colon :: no) := by
  induction h with
  | operand hnode =>
    cases List.mem_singleton.mp hquestion
    cases hnode
  | unary hsymbol hnode =>
    rcases List.mem_pair.mp hquestion with heq | rfl
    · cases heq
      cases hsymbol
    · cases hnode
  | @binary symbol left right hsymbol hleft hright ihleft ihright =>
    by_cases hmem : .operator .question ∈ left
    · obtain ⟨condition, yes, no, hcondition, hnone, hyes, hno, rfl⟩ := ihleft hmem
      exact ⟨condition, yes, _, hcondition, hnone, hyes, .binary hsymbol hno hright, by simp⟩
    · have hne : (Node.operator .question) ≠ .operator symbol := by
        rintro heq
        cases heq
        cases hsymbol
      have hmem' : .operator .question ∈ right := by
        simpa [hmem, hne] using hquestion
      obtain ⟨condition, yes, no, hcondition, hnone, hyes, hno, rfl⟩ := ihright hmem'
      refine ⟨left ++ .operator symbol :: condition, yes, no, .binary hsymbol hleft hcondition, ?_,
        hyes, hno, by simp⟩
      simp [hmem, hne, hnone]
  | @conditional condition yes no hcondition hyes hno ihcondition _ _ =>
    by_cases hmem : .operator .question ∈ condition
    · obtain ⟨first, yes', no', hfirst, hnone, hyes', hno', rfl⟩ := ihcondition hmem
      exact ⟨first, yes', _, hfirst, hnone, hyes', .conditional hno' hyes hno, by simp⟩
    · exact ⟨condition, yes, no, hcondition, hmem, hyes, hno, rfl⟩

/-- Flat lists from their last conditional on: one without conditionals, or a conditional whose
condition has none in front of a flat list. -/
@[elab_as_elim]
theorem Flat.induction_conditionals {motive : (nodes : List Node) → Flat nodes → Prop}
    (plain : ∀ nodes (h : Flat nodes), .operator .question ∉ nodes → motive nodes h)
    (conditional : ∀ condition yes no (hcondition : Flat condition) (hyes : Flat yes)
      (hno : Flat no), .operator .question ∉ condition → motive no hno →
        motive (condition ++ .operator .question :: (yes ++ .operator .colon :: no))
          (.conditional hcondition hyes hno))
    {nodes : List Node} (h : Flat nodes) : motive nodes h := by
  by_cases hquestion : .operator .question ∈ nodes
  · obtain ⟨condition, yes, no, hcondition, hnone, hyes, hno, heq⟩ :=
      h.exists_conditional hquestion
    have hlength : no.length < nodes.length := by
      rw [heq]
      simp
      omega
    subst heq
    exact conditional condition yes no hcondition hyes hno hnone
      (Flat.induction_conditionals plain conditional hno)
  · exact plain nodes h hquestion
termination_by nodes.length

end Node

namespace Reduction

variable (reduce : Node → Eval Value)

/-- A directive as it reads: its condition is evaluated on its own, and from there one of its
templates. -/
def chosen (condition : List Node) (yes no : Node) : Eval Value := do
  let value ← evaluate reduce condition
  if value.truthy then reduce yes else reduce no

/-- The evaluation of a flat list from a state succeeds, and ends with the first branch of one of
the conditionals of the list. -/
inductive EndsInBranch : List Node → State → Prop
  | taken {condition yes no : List Node} {s s' s'' : State} {v w : Value} :
      Node.Flat condition → .operator .question ∉ condition → Node.Flat yes →
      (evaluate reduce condition).outcome s = (.ok v, s') → v.truthy = true →
      (evaluate reduce yes).outcome s' = (.ok w, s'') →
        EndsInBranch (condition ++ .operator .question :: (yes ++ .operator .colon :: no)) s
  | passed {condition yes no : List Node} {s s' : State} {v : Value} :
      Node.Flat condition → .operator .question ∉ condition → Node.Flat yes →
      (evaluate reduce condition).outcome s = (.ok v, s') → v.truthy = false →
      EndsInBranch no s' →
        EndsInBranch (condition ++ .operator .question :: (yes ++ .operator .colon :: no)) s

variable {reduce} {nodes : List Node} {yes no : Node} {s : State}

theorem EndsInBranch.outcome_append (h : EndsInBranch reduce nodes s) (rest : List Node) :
    (evaluate reduce (nodes ++ rest)).outcome s = (evaluate reduce nodes).outcome s := by
  induction h with
  | taken hcondition hquestion hyes hv htruthy _ =>
    simp only [List.append_assoc, List.cons_append]
    simp only [evaluate_conditional reduce hcondition hyes hquestion, Eval.outcome_bind_ok hv,
      if_pos htruthy]
  | passed hcondition hquestion hyes hv htruthy _ ih =>
    simp only [List.append_assoc, List.cons_append]
    simp only [evaluate_conditional reduce hcondition hyes hquestion, Eval.outcome_bind_ok hv,
      htruthy, Bool.false_eq_true, if_false, ih]

theorem EndsInBranch.exists_ok (h : EndsInBranch reduce nodes s) :
    ∃ v s', (evaluate reduce nodes).outcome s = (.ok v, s') := by
  induction h with
  | @taken condition yes no s s' s'' v w hcondition hquestion hyes hv htruthy hw =>
    refine ⟨w, s'', ?_⟩
    rw [evaluate_conditional reduce hcondition hyes hquestion, Eval.outcome_bind_ok hv,
      if_pos htruthy, hw]
  | passed hcondition hquestion hyes hv htruthy _ ih =>
    obtain ⟨w, s', hw⟩ := ih
    refine ⟨w, s', ?_⟩
    rw [evaluate_conditional reduce hcondition hyes hquestion, Eval.outcome_bind_ok hv, htruthy,
      if_neg Bool.false_ne_true, hw]

theorem not_endsInBranch (h : .operator .question ∉ nodes) : ¬ EndsInBranch reduce nodes s := by
  intro hends
  cases hends <;> simp at h

theorem outcome_choice (hnodes : Node.Flat nodes) (hyes : yes.isOperator = false)
    (hno : no.isOperator = false) (hends : ¬ EndsInBranch reduce nodes s) :
    (evaluate reduce (nodes ++ [.operator .question, yes, .operator .colon, no])).outcome s =
      (chosen reduce nodes yes no).outcome s := by
  induction hnodes using Node.Flat.induction_conditionals generalizing s with
  | plain nodes hnodes hquestion =>
    have hlist : nodes ++ [.operator .question, yes, .operator .colon, no] =
        nodes ++ .operator .question :: ([yes] ++ .operator .colon :: [no]) := rfl
    rw [hlist, evaluate_conditional reduce hnodes (.operand hyes) hquestion,
      evaluate_singleton _ hyes, evaluate_singleton _ hno]
    rfl
  | conditional condition first rest hcondition hfirst hrest hquestion ih =>
    simp only [List.append_assoc, List.cons_append, chosen,
      evaluate_conditional reduce hcondition hfirst hquestion, bind_assoc]
    rcases hv : (evaluate reduce condition).outcome s with ⟨e | v, s'⟩
    · rw [Eval.outcome_bind_error hv, Eval.outcome_bind_error hv]
    rw [Eval.outcome_bind_ok hv, Eval.outcome_bind_ok hv]
    cases htruthy : v.truthy with
    | true =>
      rcases hw : (evaluate reduce first).outcome s' with ⟨e | w, s''⟩
      · simp only [if_true, hw, Eval.outcome_bind_error hw]
      · exact absurd (.taken hcondition hquestion hfirst hv htruthy hw) hends
    | false =>
      have hpassed : ¬ EndsInBranch reduce rest s' := fun h =>
        hends (.passed hcondition hquestion hfirst hv htruthy h)
      simpa [chosen] using ih hpassed

end Reduction

open Reduction

theorem directive_node_ok {scope : Scope} {condition : Expr} {yes : List Element}
    {no : Option (List Element)} {conditionNodes : List Node} {yesNode noNode : Node}
    (hcondition : condition.nodes scope = .ok conditionNodes)
    (hyes : templateNode scope yes = .ok yesNode) (hno : branchNode scope no = .ok noNode) :
    (Element.conditional condition yes no).node scope =
      .ok (choice conditionNodes yesNode noNode) := by
  obtain ⟨yesNodes, hyesNodes, hyes⟩ := exists_of_bind_ok hyes
  cases hyes
  simp only [Element.node, hcondition, hyesNodes, hno]
  rfl

theorem isOperator_templateNode {scope : Scope} {elements : List Element} {node : Node}
    (h : templateNode scope elements = .ok node) : node.isOperator = false := by
  obtain ⟨nodes, -, h⟩ := exists_of_bind_ok h
  cases h
  exact Node.isOperator_of_isAtom (isAtom_concatenation elements nodes)

theorem isOperator_branchNode {scope : Scope} {no : Option (List Element)} {node : Node}
    (h : branchNode scope no = .ok node) : node.isOperator = false := by
  cases no with
  | none =>
    cases h
    rfl
  | some elements => exact isOperator_templateNode h

/-- From this state the tree of an `if` directive comes to the template that its condition selects,
whatever its two templates are. -/
def Selects (setting : Setting) (depth : ℕ) (scope : Scope) (condition : Expr) (s : State) : Prop :=
  ∀ conditionNodes yes no yesNode noNode, condition.nodes scope = .ok conditionNodes →
    templateNode scope yes = .ok yesNode → branchNode scope no = .ok noNode →
      ∃ node, (Element.conditional condition yes no).node scope = .ok node ∧
        (reduceNode setting (depth + 1) node).outcome s =
          (chosen (reduceNode setting depth) conditionNodes yesNode noNode).outcome s

theorem exists_string_ne (v : Value) : ∃ text, Value.string text ≠ v := by
  by_cases h : Value.string "" = v
  · refine ⟨"a", fun h' => ?_⟩
    have hsame := h.trans h'.symm
    simp at hsame
  · exact ⟨"", h⟩

theorem not_selects_of_endsInBranch {setting : Setting} {depth : ℕ} {scope : Scope}
    {condition : Expr} {conditionNodes : List Node} {s : State}
    (hnodes : condition.nodes scope = .ok conditionNodes)
    (hends : EndsInBranch (reduceNode setting (depth + 1)) conditionNodes s) :
    ¬ Selects setting (depth + 1) scope condition s := by
  intro hselects
  obtain ⟨v, s', hv⟩ := hends.exists_ok
  obtain ⟨text, htext⟩ := exists_string_ne v
  have hyes : templateNode scope [.literal text] = .ok (.string text) := rfl
  have hno : branchNode scope none = .ok (.string "") := rfl
  obtain ⟨node, hnode, houtcome⟩ := hselects conditionNodes _ none _ _ hnodes hyes hno
  rw [directive_node_ok hnodes hyes hno] at hnode
  cases hnode
  have hcondition : (reduceNode setting (depth + 1 + 1)
      (choice conditionNodes (.string text) (.string ""))).outcome s = (.ok v, s') :=
    (hends.outcome_append _).trans hv
  rw [hcondition, chosen, Eval.outcome_bind_ok hv] at houtcome
  cases htruthy : v.truthy with
  | true =>
    rw [htruthy] at houtcome
    cases houtcome
    exact htext rfl
  | false =>
    rw [htruthy] at houtcome
    cases houtcome
    cases htruthy

/-- An `if` directive comes to the template that its condition selects if and only if the condition
does not end in a branch of its own; a condition whose conditionals are all in parentheses never
does. -/
theorem directive_selects_iff (setting : Setting) (depth : ℕ) {scope : Scope}
    (hscope : scope.AtomicTemplates) {condition : Expr} (hcondition : condition.Regular)
    {conditionNodes : List Node} (hnodes : condition.nodes scope = .ok conditionNodes) (s : State) :
    (Selects setting (depth + 1) scope condition s ↔
      ¬ EndsInBranch (reduceNode setting (depth + 1)) conditionNodes s) ∧
    (.operator .question ∉ conditionNodes → Selects setting (depth + 1) scope condition s) := by
  have hflat : Node.Flat conditionNodes := flat_nodes hscope condition hcondition hnodes
  have hselects (hends : ¬ EndsInBranch (reduceNode setting (depth + 1)) conditionNodes s) :
      Selects setting (depth + 1) scope condition s := by
    intro nodes yes no yesNode noNode hnodes' hyes hno
    obtain rfl : conditionNodes = nodes := Except.ok.inj (hnodes.symm.trans hnodes')
    refine ⟨_, directive_node_ok hnodes hyes hno, ?_⟩
    exact outcome_choice hflat (isOperator_templateNode hyes) (isOperator_branchNode hno) hends
  refine ⟨⟨fun h hends => not_selects_of_endsInBranch hnodes hends h, hselects⟩, fun h => ?_⟩
  exact hselects (not_endsInBranch h)

/-- `%{ if false ? "a" : "b" == "b" }`, which goes past its conditional. -/
theorem directive_selects_iff_passed :
    Selects ⟨[], [], [], 8⟩ 2 (scopeWithin false none 0)
      (.conditional (.bool false) (.string "a") (.binary (.string "b") .equal (.string "b")))
      {} := by
  refine (directive_selects_iff ⟨[], [], [], 8⟩ 1 (atomicTemplates_scopeWithin false none 0)
    (by simp [Expr.Regular, Operator.isBinary]) rfl {}).1.2 fun hends => ?_
  -- a list that ends in a branch has the same value with a further conditional behind it
  have houtcome := hends.outcome_append
    [.operator .question, .string "t", .operator .colon, .string "f"]
  have htext := congrArg (fun outcome => outcome.1.toOption.bind Value.string?) houtcome
  revert htext
  decide +kernel

def unparenthesized : String :=
  "x = \"%\x7b if true ? false : true \x7dt%\x7b else \x7df%\x7b endif \x7d\"\n"

/-- The condition is `false`, and yet the text is not that of the second template, but what the
condition ends with. -/
theorem not_selects :
    (¬ ∀ setting depth condition s, condition.Regular →
      Selects setting depth (scopeWithin false none 0) condition s) ∧
    ((Session.parse ⟨[], [], [], {}, []⟩ unparenthesized).1.toOption.bind fun document =>
      (Table.get? document "x").bind Value.string?) = some "false" := by
  refine ⟨fun h => ?_, by decide +kernel⟩
  have hcondition : (evaluate (reduceNode ⟨[], [], [], 8⟩ 1) [.boolean true]).outcome {} =
      (.ok (.bool true), {}) := by
    rw [evaluate_singleton _ rfl]
    rfl
  have hbranch : (evaluate (reduceNode ⟨[], [], [], 8⟩ 1) [.boolean false]).outcome {} =
      (.ok (.bool false), {}) := by
    rw [evaluate_singleton _ rfl]
    rfl
  have hends : EndsInBranch (reduceNode ⟨[], [], [], 8⟩ 1)
      [.boolean true, .operator .question, .boolean false, .operator .colon, .boolean true] {} :=
    .taken (.operand rfl) (by simp [Node.boolean]) (.operand rfl) hcondition rfl hbranch
  exact not_selects_of_endsInBranch rfl hends
    (h ⟨[], [], [], 8⟩ 1 (.conditional (.bool true) (.bool false) (.bool true)) {}
      (by simp [Expr.Regular]))

end HclEval
