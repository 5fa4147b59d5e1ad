import HclEval.Proofs.Expressions.Conditionals

/-!
The logical operators. The right operand of `&&` and `||` reaches to the next logical operator, so
`a && b == c` asks for `a` and for `b == c`. The operands are evaluated one after the other, all of
them whatever the first ones come to, and their truth is combined strictly from left to right.
-/
namespace HclEval

open Reduction

inductive Connective where
  | and | or
  deriving DecidableEq, Repr

namespace Connective

def operator : Connective → Operator
  | and => .and
  | or => .or

def apply : Connective → Bool → Bool → Bool
  | and, a, b => a && b
  | or, a, b => a || b

/-- The truth of operands joined by connectives, none of which binds tighter than another. -/
def combine (first : Bool) (rest : List (Connective × Bool)) : Bool :=
  rest.foldl (fun truth (connective, operand) => connective.apply truth operand) first

@[simp] theorem combine_nil (first : Bool) : combine first [] = first := rfl

@[simp] theorem combine_cons (first operand : Bool) (connective : Connective)
    (rest : List (Connective × Bool)) :
    combine first ((connective, operand) :: rest) =
      combine (connective.apply first operand) rest := rfl

end Connective

@[simp] theorem Value.truthy_bool (b : Bool) : (Value.bool b).truthy = b := by
  cases b <;> rfl

namespace Reduction

def connected (rest : List (Connective × List Node)) : List Node :=
  rest.flatMap fun (connective, operand) => .operator connective.operator :: operand

theorem connected_cons (connective : Connective) (operand : List Node)
    (rest : List (Connective × List Node)) :
    connected ((connective, operand) :: rest) =
      .operator connective.operator :: (operand ++ connected rest) := rfl

theorem endsLogical_connective (connective : Connective) :
    endsLogical (.operator connective.operator) = true := by
  cases connective <;> rfl

theorem takeWhile_connected (rest : List (Connective × List Node)) :
    (connected rest).takeWhile (!endsLogical ·) = [] := by
  cases rest with
  | nil => rfl
  | cons part rest => simp [connected, endsLogical_connective]

theorem dropWhile_connected (rest : List (Connective × List Node)) :
    (connected rest).dropWhile (!endsLogical ·) = connected rest := by
  have hsplit := List.takeWhile_append_dropWhile (p := (!endsLogical ·)) (l := connected rest)
  rwa [takeWhile_connected, List.nil_append] at hsplit

section
variable (reduce : Node → Eval Value)

theorem evaluateFrom_connective (value : Value) (connective : Connective) {operand : List Node}
    (hoperand : ∀ node ∈ operand, endsLogical node = false)
    (rest : List (Connective × List Node)) :
    evaluateFrom reduce value (connected ((connective, operand) :: rest)) =
      evaluate reduce operand >>= fun right =>
        evaluateFrom reduce (.bool (connective.apply value.truthy right.truthy))
          (connected rest) := by
  have hinside : ∀ node ∈ operand, (!endsLogical node) = true := by simpa using hoperand
  have htake : (operand ++ connected rest).takeWhile (!endsLogical ·) = operand := by
    rw [List.takeWhile_append_of_pos hinside, takeWhile_connected, List.append_nil]
  have hdrop : (operand ++ connected rest).dropWhile (!endsLogical ·) = connected rest := by
    rw [List.dropWhile_append_of_pos hinside, dropWhile_connected]
  rw [connected_cons]
  cases connective <;>
    simp only [Connective.operator, Connective.apply, evaluateFrom, htake, hdrop, evaluate]

def truths (rest : List (Connective × List Node)) : Eval (List (Connective × Bool)) :=
  rest.mapM fun (connective, operand) => do
    return (connective, (← evaluate reduce operand).truthy)

theorem truths_cons (connective : Connective) (operand : List Node)
    (rest : List (Connective × List Node)) :
    truths reduce ((connective, operand) :: rest) = do
      let right ← evaluate reduce operand
      let more ← truths reduce rest
      return (connective, right.truthy) :: more := by
  simp only [truths, List.mapM_cons, bind_assoc, pure_bind]

theorem evaluateFrom_connected (b : Bool) {rest : List (Connective × List Node)}
    (hrest : ∀ part ∈ rest, ∀ node ∈ part.2, endsLogical node = false) :
    evaluateFrom reduce (.bool b) (connected rest) = do
      return .bool (Connective.combine b (← truths reduce rest)) := by
  induction rest generalizing b with
  | nil => simp [connected, evaluateFrom, truths]
  | cons part rest ih =>
    obtain ⟨connective, operand⟩ := part
    have hparts := List.forall_mem_cons.mp hrest
    simp only [evaluateFrom_connective reduce _ connective hparts.1, ih _ hparts.2, truths_cons,
      bind_assoc, pure_bind, Value.truthy_bool, Connective.combine_cons]

end

end Reduction

/-- Operands joined by `&&` and `||` are evaluated from left to right, each as an expression of its
own and none left out, up to the first error; the result is their truth, combined in this order.
What the operators of the first operand need has to stand before the first connective. -/
theorem connectives_evaluate_all_operands (reduce : Node → Eval Value) {first : List Node}
    {rest : List (Connective × List Node)} (hne : rest ≠ []) (hfirst : SelfContained first)
    (hplain : ∀ operand ∈ first :: rest.map Prod.snd, ∀ node ∈ operand,
      endsLogical node = false) :
    evaluate reduce (first ++ connected rest) = do
      let value ← evaluate reduce first
      return .bool (Connective.combine value.truthy (← truths reduce rest)) := by
  obtain ⟨⟨connective, operand⟩, rest, rfl⟩ := List.exists_cons_of_ne_nil hne
  simp only [List.map_cons, List.forall_mem_cons, List.forall_mem_map] at hplain
  obtain ⟨hfirstPlain, hoperand, hrest⟩ := hplain
  have hends : EndsAt connective.operator first := by
    refine ⟨hfirst, .inr fun hcolon => ?_⟩
    cases hfirstPlain _ hcolon
  have hstop : connective.operator.endsLogicalOperand = true := endsLogical_connective connective
  have happend : evaluate reduce (first ++ connected ((connective, operand) :: rest)) =
      evaluate reduce first >>= fun value =>
        evaluateFrom reduce value (connected ((connective, operand) :: rest)) :=
    evaluateFrom_append reduce hstop .null hends
  simp only [happend, truths_cons, evaluateFrom_connective reduce _ connective hoperand,
    evaluateFrom_connected reduce _ hrest, bind_assoc, pure_bind, Connective.combine_cons]

theorem connectives_evaluate_all_operands_calls :
    (evaluate (reduceNode ⟨[("f", fun _ _ => .ok .null)], [], [], 8⟩ 2)
      ([.operator .not, .literal .string "a"] ++ connected [(.and, [.call "f" [] false]),
        (.or, [.literal .string "b"]), (.or, [.call "f" [] false])])).outcome {} =
      (.ok (.bool true), { calls := [.function "f" [], .function "f" []] }) := by
  have hfirst : SelfContained [.operator .not, .literal .string "a"] := ⟨rfl, rfl, trivial⟩
  rw [connectives_evaluate_all_operands _ (by simp) hfirst
    (by simp [endsLogical, Operator.endsLogicalOperand])]
  simp only [truths_cons, evaluate, evaluateFrom, operand, unary?, afterOperand, Option.isSome_none,
    Bool.false_eq_true, if_false, bind_pure]
  rfl

end HclEval
