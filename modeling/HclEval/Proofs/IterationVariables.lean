import HclEval.Proofs.DocumentScope
import HclEval.Proofs.Resolution

/-!
References to the variables of `for` expressions. Where such a reference leads is decided by the
innermost scope that binds its first name, but whether it is resolved at all is decided before, by
its text alone: one that is spelled like a reference in progress counts as a cycle, although the
two start in different places.
-/
namespace HclEval

open Reduction

variable (reduce : Node → Eval Value) (setting : Setting) (depth : ℕ)

/-- A reference reads what its first name is bound to. Whatever is in progress it is no cycle, and
where there is room for it, it comes to the value at the other names, or stays as it is if there is
none. -/
def ReadsBinding (s : State) (v : Value) (name : String) (names : List String) : Prop :=
  let segments : List Node := .segment name :: names.map .segment
  (∀ path, ((resolveReference reduce setting depth segments).outcome s).1 ≠
    .error (.error (.cyclicReference path))) ∧
    (s.resolving.length < setting.maxDepth →
      (resolveReference reduce setting depth segments).outcome s =
        (.ok ((v.pointer? names).getD (.node (.reference segments))), s))

theorem origin?_of_bound {s : State} {name : String} {v : Value}
    (h : bound? s.scopes name = some v) : origin? s name = some (.value v) := by
  unfold origin?
  unfold bound? at h
  rw [h]

theorem outcome_resolveReference_of_bound {s : State} {v : Value} {name : String}
    {names : List String} (hbound : bound? s.scopes name = some v)
    (hfree : v.Every fun _ => False)
    (hpath : Node.pathText (.segment name :: names.map .segment) ∉ s.resolving)
    (hroom : s.resolving.length < setting.maxDepth) :
    (resolveReference reduce setting depth (.segment name :: names.map .segment)).outcome s =
      (.ok ((v.pointer? names).getD (.node (.reference (.segment name :: names.map .segment)))),
        s) := by
  have hscopes (resolving : List String) :
      bound? { s with resolving := resolving }.scopes name = some v := hbound
  rw [outcome_resolveReference reduce setting depth hpath hroom, outcome_resolveSegments_name,
    origin?_of_bound (hscopes _), outcome_follow_value reduce setting depth hfree]
  rfl

/-- A reference to a bound name reads its binding if and only if no reference that is spelled the
same is in progress. -/
theorem readsBinding_iff {s : State} {v : Value} {name : String} {names : List String}
    (hbound : bound? s.scopes name = some v) (hfree : v.Every fun _ => False) :
    ReadsBinding reduce setting depth s v name names ↔
      Node.pathText (.segment name :: names.map .segment) ∉ s.resolving := by
  constructor
  · intro h hmem
    have hcycle := outcome_resolveReference_of_mem reduce setting depth hmem
    exact h.1 _ (congrArg Prod.fst hcycle)
  · intro hpath
    have hread := outcome_resolveReference_of_bound reduce setting depth hbound hfree hpath
    refine ⟨fun path => ?_, hread⟩
    by_cases hroom : s.resolving.length < setting.maxDepth
    · rw [hread hroom]
      simp
    · rw [outcome_resolveReference_of_limit reduce setting depth hpath (by omega)]
      simp

def itemState (resolving : List String) : State where
  scopes := [[("item", .number (.ofNat 1))]]
  resolving := resolving

theorem readsBinding_iff_item :
    ReadsBinding (reduceNode ⟨[], [], [], 64⟩ 3) ⟨[], [], [], 64⟩ 3 (itemState ["local.item"])
      (.number (.ofNat 1)) "item" [] := by
  have hfree : (Value.number (.ofNat 1)).Every fun _ => False := by simp
  refine (readsBinding_iff _ _ _ rfl hfree).2 ?_
  decide

def homonyms : List Node :=
  [namedAfter "x" "item",
    .named "item" [.comprehension none "item" (.array [.literal .number "1"]) none
      (.reference [.segment "item"]) none false] none]

/-- What is in progress matters: the variable is taken for a cycle if its attribute is reached
through a reference of the same text, and is read if the attribute comes first. -/
theorem not_readsBinding :
    (¬ ∀ setting depth s v name names, bound? s.scopes name = some v → (v.Every fun _ => False) →
      ReadsBinding (reduceNode setting depth) setting depth s v name names) ∧
      (run ⟨[], [], [], 64⟩ [] homonyms).1 = .error (.error (.cyclicReference "item")) ∧
        (run ⟨[], [], [], 64⟩ [] homonyms.reverse).1 = .ok () := by
  refine ⟨fun h => ?_, by decide +kernel, by decide +kernel⟩
  have hread := h ⟨[], [], [], 64⟩ 3 (itemState ["item"]) (.number (.ofNat 1)) "item" [] rfl
    (by simp)
  have hmem : Node.pathText [.segment "item"] ∈ (itemState ["item"]).resolving := by decide
  have hcycle := outcome_resolveReference_of_mem (reduceNode ⟨[], [], [], 64⟩ 3) ⟨[], [], [], 64⟩ 3
    hmem
  exact hread.1 _ (congrArg Prod.fst hcycle)

end HclEval
