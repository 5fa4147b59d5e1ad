import HclEval.Proofs.Coupling.Expression
import HclEval.Proofs.Expressions.Shape
import HclEval.Reduction.Basic

/-!
Conditionals in flat lists. A list in which every `?` has its `:` and every other operator its
operand is evaluated without a look at what stands behind it, up to the operator that ends it.
-/
namespace HclEval.Reduction

def afterBranch? : Nat → List Node → Option (List Node)
  | _, [] => none
  | depth, .operator .question :: rest => afterBranch? (depth + 1) rest
  | 0, .operator .colon :: rest => some rest
  | depth + 1, .operator .colon :: rest => afterBranch? depth rest
  | depth, _ :: rest => afterBranch? depth rest

theorem skipBranch_eq (depth : Nat) (nodes : List Node) :
    skipBranch depth nodes = (afterBranch? depth nodes).getD [] := by
  fun_induction afterBranch? depth nodes <;> simp_all [skipBranch]

def startsWithOperand : List Node → Bool
  | [] => false
  | node :: rest => if (unary? node).isSome then startsWithOperand rest else true

def completes : Node → List Node → Bool
  | .operator .question, rest => (afterBranch? 0 rest).isSome
  | .operator symbol, rest => symbol.endsLogicalOperand || startsWithOperand rest
  | _, _ => true

/-- All operators of a list have what they need in the list. -/
def SelfContained : List Node → Prop
  | [] => True
  | node :: rest => completes node rest = true ∧ SelfContained rest

section
variable (reduce : Node → Eval Value) {nodes rest : List Node} {depth : ℕ}

theorem afterBranch?_append {branch : List Node} (h : afterBranch? depth nodes = some branch) :
    afterBranch? depth (nodes ++ rest) = some (branch ++ rest) := by
  fun_induction afterBranch? depth nodes <;> simp_all [afterBranch?]

theorem startsWithOperand_append (h : startsWithOperand nodes = true) :
    startsWithOperand (nodes ++ rest) = true := by
  fun_induction startsWithOperand nodes <;> simp_all [startsWithOperand]

theorem operand_append (h : startsWithOperand nodes = true) :
    operand reduce (nodes ++ rest) = operand reduce nodes := by
  fun_induction startsWithOperand nodes <;> simp_all [operand]

theorem afterOperand_append (h : startsWithOperand nodes = true) :
    afterOperand (nodes ++ rest) = afterOperand nodes ++ rest := by
  fun_induction startsWithOperand nodes <;> simp_all [afterOperand]

theorem skipBranch_suffix (depth : ℕ) (nodes : List Node) : skipBranch depth nodes <:+ nodes := by
  fun_induction skipBranch depth nodes
  case case1 => exact List.suffix_refl _
  case case3 => exact List.suffix_cons ..
  all_goals exact List.IsSuffix.trans ‹_› (List.suffix_cons ..)

theorem afterOperand_suffix (nodes : List Node) : afterOperand nodes <:+ nodes := by
  fun_induction afterOperand nodes
  case case1 => exact List.suffix_refl _
  case case2 => exact List.IsSuffix.trans ‹_› (List.suffix_cons ..)
  case case3 => exact List.suffix_cons ..

namespace SelfContained

theorem of_suffix {inner : List Node} (h : SelfContained nodes) (hinner : inner <:+ nodes) :
    SelfContained inner := by
  induction nodes with
  | nil => rwa [List.suffix_nil.mp hinner]
  | cons node nodes ih =>
    rcases List.suffix_cons_iff.mp hinner with rfl | hinner
    · exact h
    · exact ih h.2 hinner

end SelfContained

theorem completes_append {node : Node} (h : completes node nodes = true) :
    completes node (nodes ++ rest) = true := by
  unfold completes at h ⊢
  split at h
  · obtain ⟨branch, hbranch⟩ := Option.isSome_iff_exists.mp h
    simp [afterBranch?_append hbranch]
  · rcases Bool.or_eq_true_iff.mp h with h | h
    · simp [h]
    · simp [startsWithOperand_append h]
  · simp

theorem SelfContained.append (hnodes : SelfContained nodes) (hrest : SelfContained rest) :
    SelfContained (nodes ++ rest) := by
  induction nodes with
  | nil => exact hrest
  | cons node nodes ih => exact ⟨completes_append hnodes.1, ih hnodes.2⟩

theorem afterBranch?_of_isOperator_eq_false {node : Node} (h : node.isOperator = false) :
    afterBranch? depth (node :: rest) = afterBranch? depth rest := by
  cases node <;> first | rfl | cases h

theorem afterBranch?_of_isBinary {symbol : Operator} (h : symbol.isBinary = true) :
    afterBranch? depth (.operator symbol :: rest) = afterBranch? depth rest := by
  cases symbol <;> first | rfl | cases h

theorem unary?_of_isOperator_eq_false {node : Node} (h : node.isOperator = false) :
    unary? node = none := by
  cases node <;> first | rfl | cases h

theorem completes_of_isOperator_eq_false {node : Node} (h : node.isOperator = false) :
    completes node rest = true := by
  cases node <;> first | rfl | cases h

theorem afterBranch?_flat (h : Node.Flat nodes) :
    afterBranch? depth (nodes ++ rest) = afterBranch? depth rest := by
  induction h generalizing depth rest with
  | operand hnode => exact afterBranch?_of_isOperator_eq_false hnode
  | @unary symbol node hsymbol hnode =>
    have hstep : afterBranch? depth (.operator symbol :: node :: rest) =
        afterBranch? depth (node :: rest) := by
      cases symbol <;> first | rfl | cases hsymbol
    exact hstep.trans (afterBranch?_of_isOperator_eq_false hnode)
  | binary hsymbol _ _ ihleft ihright =>
    rw [List.append_assoc, ihleft, List.cons_append, afterBranch?_of_isBinary hsymbol, ihright]
  | conditional _ _ _ ihcondition ihyes ihno =>
    simp only [List.append_assoc, List.cons_append, ihcondition, afterBranch?, ihyes, ihno]

theorem startsWithOperand_flat (h : Node.Flat nodes) : startsWithOperand nodes = true := by
  induction h with
  | operand hnode => simp [startsWithOperand, unary?_of_isOperator_eq_false hnode]
  | unary _ hnode => simp [startsWithOperand, unary?_of_isOperator_eq_false hnode]
  | binary _ _ _ ihleft => exact startsWithOperand_append ihleft
  | conditional _ _ _ ihcondition => exact startsWithOperand_append ihcondition

theorem completes_of_startsWithOperand {symbol : Operator} (hsymbol : symbol ≠ .question)
    (h : startsWithOperand rest = true) : completes (.operator symbol) rest = true := by
  simp [completes, h]

/-- The flat list of an expression is evaluated without what stands behind it. -/
theorem selfContained_flat (h : Node.Flat nodes) : SelfContained nodes := by
  induction h with
  | operand hnode => exact ⟨completes_of_isOperator_eq_false hnode, trivial⟩
  | @unary symbol node hsymbol hnode =>
    have hoperand : startsWithOperand [node] = true := startsWithOperand_flat (.operand hnode)
    have hquestion : symbol ≠ .question := by
      rintro rfl
      cases hsymbol
    exact ⟨completes_of_startsWithOperand hquestion hoperand,
      completes_of_isOperator_eq_false hnode, trivial⟩
  | @binary symbol left right hsymbol _ hright ihleft ihright =>
    have hquestion : symbol ≠ .question := by
      rintro rfl
      cases hsymbol
    exact ihleft.append
      ⟨completes_of_startsWithOperand hquestion (startsWithOperand_flat hright), ihright⟩
  | @conditional condition yes no _ hyes _ ihcondition ihyes ihno =>
    have hcloses : completes (.operator .question) (yes ++ .operator .colon :: no) = true := by
      simp [completes, afterBranch?_flat hyes, afterBranch?]
    exact ihcondition.append ⟨hcloses, ihyes.append ⟨rfl, ihno⟩⟩

theorem question_mem_of_colon_mem (h : Node.Flat nodes) (hcolon : .operator .colon ∈ nodes) :
    .operator .question ∈ nodes := by
  induction h with
  | operand hnode =>
    cases List.mem_singleton.mp hcolon
    cases hnode
  | @unary symbol node hsymbol hnode =>
    rcases List.mem_pair.mp hcolon with heq | rfl
    · cases heq
      cases hsymbol
    · cases hnode
  | binary hsymbol _ _ ihleft ihright =>
    simp only [List.mem_append, List.mem_cons] at hcolon ⊢
    rcases hcolon with hcolon | heq | hcolon
    · exact .inl (ihleft hcolon)
    · cases heq
      cases hsymbol
    · exact .inr (.inr (ihright hcolon))
  | conditional => simp

/-- Does a list mean the same with this operator behind it? -/
structure EndsAt (stop : Operator) (nodes : List Node) : Prop where
  selfContained : SelfContained nodes
  colon : stop = .colon ∨ .operator .colon ∉ nodes

theorem EndsAt.of_cons {stop : Operator} {node : Node} {inner : List Node}
    (h : EndsAt stop (node :: nodes)) (hinner : inner <:+ nodes) : EndsAt stop inner where
  selfContained := h.selfContained.2.of_suffix hinner
  colon := h.colon.imp_right fun hcolon hmem =>
    hcolon (List.mem_cons_of_mem node (hinner.subset hmem))

section
variable {stop : Operator} (hstop : stop.endsLogicalOperand = true)
include hstop

theorem takeWhile_append_stop (nodes rest : List Node) :
    (nodes ++ .operator stop :: rest).takeWhile (!endsLogical ·) =
      nodes.takeWhile (!endsLogical ·) := by
  induction nodes with
  | nil => simp [endsLogical, hstop]
  | cons node nodes ih => simp only [List.cons_append, List.takeWhile_cons, ih]

theorem dropWhile_append_stop (nodes rest : List Node) :
    (nodes ++ .operator stop :: rest).dropWhile (!endsLogical ·) =
      nodes.dropWhile (!endsLogical ·) ++ .operator stop :: rest := by
  induction nodes with
  | nil => simp [endsLogical, hstop]
  | cons node nodes ih =>
    simp only [List.cons_append, List.dropWhile_cons, ih]
    split <;> rfl

/-- What stands behind an operator at which operands end is evaluated after the list before it,
unless that ends at a `:` of its own. -/
theorem evaluateFrom_append (result : Value) (hnodes : EndsAt stop nodes) :
    evaluateFrom reduce result (nodes ++ .operator stop :: rest) =
      evaluateFrom reduce result nodes >>= fun value =>
        evaluateFrom reduce value (.operator stop :: rest) := by
  fun_induction evaluateFrom reduce result nodes
  case case1 => rw [pure_bind, List.nil_append]
  case case2 result tail =>
    obtain rfl : stop = .colon := hnodes.colon.resolve_right fun h => h (List.mem_cons_self ..)
    rw [pure_bind, List.cons_append, evaluateFrom, evaluateFrom]
  case case3 result tail htruthy ih =>
    rw [List.cons_append, evaluateFrom, if_pos htruthy, ih (hnodes.of_cons (List.suffix_refl _))]
  case case4 result tail htruthy ih =>
    obtain ⟨branch, hbranch⟩ := Option.isSome_iff_exists.mp hnodes.selfContained.1
    have hsuffix := hnodes.of_cons (skipBranch_suffix 0 tail)
    simp only [skipBranch_eq, hbranch, Option.getD_some] at ih hsuffix ⊢
    rw [List.cons_append, evaluateFrom, if_neg htruthy, skipBranch_eq,
      afterBranch?_append hbranch, Option.getD_some, ih hsuffix]
  case case5 result tail _ ih | case6 result tail _ ih =>
    simp only [List.cons_append, evaluateFrom, takeWhile_append_stop hstop,
      dropWhile_append_stop hstop, bind_assoc, ih _ (hnodes.of_cons (List.dropWhile_suffix _))]
  case case7 result tail ih =>
    have hoperand : startsWithOperand tail = true := by
      simpa [completes, Operator.endsLogicalOperand] using hnodes.selfContained.1
    simp only [List.cons_append, evaluateFrom, operand_append reduce hoperand,
      afterOperand_append hoperand, bind_assoc, ih _ (hnodes.of_cons (afterOperand_suffix tail))]
  case case8 result symbol tail hcolon hquestion hand hor hnot ih =>
    have hoperand : startsWithOperand tail = true := by
      have := hnodes.selfContained.1
      cases symbol <;> simp_all [completes, Operator.endsLogicalOperand]
    simp only [List.cons_append, evaluateFrom, operand_append reduce hoperand,
      afterOperand_append hoperand, bind_assoc, ih _ (hnodes.of_cons (afterOperand_suffix tail))]
  case case9 result node tail _ _ _ _ _ hoperator ih =>
    simp only [List.cons_append, evaluateFrom, bind_assoc,
      ih _ (hnodes.of_cons (List.suffix_refl _))]

end

theorem evaluate_conditional {condition yes no : List Node} (hcondition : Node.Flat condition)
    (hyes : Node.Flat yes) (hquestion : .operator .question ∉ condition) :
    evaluate reduce (condition ++ .operator .question :: (yes ++ .operator .colon :: no)) =
      evaluate reduce condition >>= fun value =>
        if value.truthy then evaluate reduce yes else evaluate reduce no := by
  have hends : EndsAt .question condition :=
    ⟨selfContained_flat hcondition,
      .inr fun hcolon => hquestion (question_mem_of_colon_mem hcondition hcolon)⟩
  have htaken : evaluateFrom reduce .null (yes ++ .operator .colon :: no) =
      evaluateFrom reduce .null yes := by
    rw [evaluateFrom_append reduce rfl .null ⟨selfContained_flat hyes, .inl rfl⟩]
    simp only [evaluateFrom, bind_pure]
  have hskipped : skipBranch 0 (yes ++ .operator .colon :: no) = no := by
    rw [skipBranch_eq, afterBranch?_flat hyes, afterBranch?, Option.getD_some]
  simp only [evaluate, evaluateFrom_append reduce rfl .null hends, evaluateFrom, htaken, hskipped]

end

end HclEval.Reduction

namespace HclEval
open Source Reduction

/-- The flat list of a conditional whose condition has none of its own is evaluated as its condition
is and then, from there, as one of its branches is, and nothing else is evaluated. -/
theorem conditional_takes_one_branch (reduce : Node → Eval Value) {scope : Scope}
    (hscope : scope.AtomicTemplates) {condition yes no : Expr}
    (hcondition : condition.Regular) (hyes : yes.Regular)
    {conditionNodes yesNodes noNodes : List Node}
    (hconditionNodes : condition.nodes scope = .ok conditionNodes)
    (hyesNodes : yes.nodes scope = .ok yesNodes) (hnoNodes : no.nodes scope = .ok noNodes)
    (hquestion : .operator .question ∉ conditionNodes) :
    ∃ nodes, (Expr.conditional condition yes no).nodes scope = .ok nodes ∧
      evaluate reduce nodes = (do
        let value ← evaluate reduce conditionNodes
        if value.truthy then evaluate reduce yesNodes else evaluate reduce noNodes) := by
  refine ⟨conditionNodes ++ .operator .question :: (yesNodes ++ .operator .colon :: noNodes),
    ?_, ?_⟩
  · simp only [Expr.nodes, hconditionNodes, hyesNodes, hnoNodes]
    simp [bind, Except.bind, pure, Except.pure]
  · exact evaluate_conditional reduce (flat_nodes hscope condition hcondition hconditionNodes)
      (flat_nodes hscope yes hyes hyesNodes) hquestion

def yesSetting : Setting := ⟨[("f", fun _ _ => .ok (.bool true))], [], [], 8⟩

def readingText (text : String) : State := { document := [("b", .string text)] }

/-- `"a" == b ? "c" ? "d" : "e" : f()` makes no call where `b` is `"a"`, and else only the call. -/
theorem conditional_takes_one_branch_nested :
    ∃ nodes,
      (Expr.conditional (.binary (.string "a") .equal (.variable "b"))
        (.conditional (.string "c") (.string "d") (.string "e")) (.call "f" [] false)).nodes
          (scopeWithin false none 0) = .ok nodes ∧
      (evaluate (reduceNode yesSetting 4) nodes).outcome (readingText "a") =
        (.ok (.string "d"), readingText "a") ∧
      (evaluate (reduceNode yesSetting 4) nodes).outcome (readingText "x") =
        (.ok (.bool true), { readingText "x" with calls := [.function "f" []] }) := by
  have hcondition : (Expr.binary (.string "a") .equal (.variable "b")).Regular := by
    simp [Expr.Regular, Operator.isBinary]
  have hyes : (Expr.conditional (.string "c") (.string "d") (.string "e")).Regular := by
    simp [Expr.Regular]
  have hconditionNodes :
      (Expr.binary (.string "a") .equal (.variable "b")).nodes (scopeWithin false none 0) =
        .ok [.string "a", .operator .equal, .reference [.segment "b"]] := rfl
  have hyesNodes : (Expr.conditional (.string "c") (.string "d") (.string "e")).nodes
      (scopeWithin false none 0) =
        .ok [.string "c", .operator .question, .string "d", .operator .colon, .string "e"] := rfl
  have hnoNodes : (Expr.call "f" [] false).nodes (scopeWithin false none 0) =
      .ok [.call "f" [] false] := rfl
  obtain ⟨nodes, hnodes, heval⟩ := conditional_takes_one_branch (reduceNode yesSetting 4)
    (atomicTemplates_scopeWithin false none 0) hcondition hyes hconditionNodes hyesNodes hnoNodes
    (by simp [Node.string])
  have hstring (text : String) : reduceNode yesSetting 4 (.string text) = pure (.string text) := rfl
  have hcompared : evaluate (reduceNode yesSetting 4)
      [.string "a", .operator .equal, .reference [.segment "b"]] =
        reduceNode yesSetting 4 (.reference [.segment "b"]) >>= fun right =>
          pure (apply .equal (.string "a") right) := by
    rw [evaluate_string_cons, hstring]
    simp [evaluateFrom, Reduction.operand, afterOperand, unary?]
  have hchosen : evaluate (reduceNode yesSetting 4)
      [.string "c", .operator .question, .string "d", .operator .colon, .string "e"] =
        pure (.string "d") := by
    rw [evaluate_string_cons, hstring, pure_bind, evaluateFrom]
    simp only [evaluateFrom, Node.string]
    rfl
  rw [hcompared, hchosen, evaluate_singleton _ rfl] at heval
  refine ⟨nodes, hnodes, ?_, ?_⟩
  · rw [heval]
    rfl
  · rw [heval]
    rfl

end HclEval
