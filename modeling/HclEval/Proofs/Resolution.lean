import HclEval.Proofs.Coupling.Reference
import HclEval.Reduction.Expression

/-!
What the resolution of a reference made of plain names comes to from a state: first whether it is
in progress already, then whether there is room for one more, and only then where it leads. Where
that is a place without trees, nothing is evaluated.
-/
namespace HclEval

open Reduction

namespace Value

theorem size_le_sizeItems {v : Value} {items : List Value} (h : v ∈ items) :
    v.size ≤ sizeItems items := by
  induction items with
  | nil => cases h
  | cons first rest ih =>
    rw [sizeItems]
    rcases List.mem_cons.mp h with rfl | h
    · exact Nat.le_add_right ..
    · exact (ih h).trans (Nat.le_add_left ..)

theorem size_le_sizeEntries {e : String × Value} {entries : List (String × Value)}
    (h : e ∈ entries) : e.2.size ≤ sizeEntries entries := by
  induction entries with
  | nil => cases h
  | cons first rest ih =>
    rw [sizeEntries]
    rcases List.mem_cons.mp h with rfl | h
    · exact Nat.le_add_right ..
    · exact (ih h).trans (Nat.le_add_left ..)

theorem size_pos (v : Value) : 0 < v.size := by
  cases v <;> simp [size]

theorem size_lt_of_child? {v c : Value} {step : Step} (h : v.child? step = some c) :
    c.size < v.size := by
  cases v <;> cases step <;> simp only [child?, reduceCtorEq] at h
  case list.index items i => exact Nat.lt_succ_of_le (size_le_sizeItems (List.mem_of_getElem? h))
  case map.key entries name =>
    exact Nat.lt_succ_of_le (size_le_sizeEntries (Table.mem_of_get? h))

theorem ne_node_of_free {v : Value} (h : v.Every fun _ => False) (tree : Node) : v ≠ node tree := by
  rintro rfl
  exact (every_node _).mp h

end Value

namespace Reduction

variable (reduce : Node → Eval Value) (setting : Setting) (depth : ℕ)

section
variable {segments : List Node} {s : State}

theorem outcome_resolveReference_of_mem (h : Node.pathText segments ∈ s.resolving) :
    (resolveReference reduce setting depth segments).outcome s =
      (.error (.error (.cyclicReference (Node.pathText segments))), s) := by
  have hcontains : s.resolving.contains (Node.pathText segments) = true := by simpa using h
  unfold resolveReference
  rw [Eval.outcome_get_bind]
  simp only [hcontains, if_true, Eval.outcome_fail]

theorem outcome_resolveReference_of_limit (h : Node.pathText segments ∉ s.resolving)
    (hlimit : setting.maxDepth ≤ s.resolving.length) :
    (resolveReference reduce setting depth segments).outcome s =
      (.error (.error (.recursionLimit setting.maxDepth)), s) := by
  have hcontains : s.resolving.contains (Node.pathText segments) = false := by simpa using h
  unfold resolveReference
  rw [Eval.outcome_get_bind]
  simp only [hcontains, Bool.false_eq_true, if_false, hlimit, if_true, Eval.outcome_fail]

theorem outcome_resolveReference (h : Node.pathText segments ∉ s.resolving)
    (hroom : s.resolving.length < setting.maxDepth) :
    (resolveReference reduce setting depth segments).outcome s =
      match (resolveSegments reduce setting depth segments).outcome
          { s with resolving := Node.pathText segments :: s.resolving } with
      | (.ok v?, s') => (.ok (v?.getD (.node (.reference segments))),
          { s' with resolving := s'.resolving.tail })
      | (.error e, s') => (.error e, { s' with resolving := s'.resolving.tail }) := by
  have hcontains : s.resolving.contains (Node.pathText segments) = false := by simpa using h
  have hlimit : ¬ setting.maxDepth ≤ s.resolving.length := by omega
  unfold resolveReference
  rw [Eval.outcome_get_bind]
  simp only [hcontains, Bool.false_eq_true, if_false, hlimit]
  rw [Eval.outcome_bind, Eval.outcome_withReference]
  rcases (resolveSegments reduce setting depth segments).outcome
    { s with resolving := Node.pathText segments :: s.resolving } with ⟨_ | _ | _, _⟩ <;> rfl

end

theorem outcome_resolveSegments_name (name : String) (rest : List Node) (s : State) :
    (resolveSegments reduce setting depth (.segment name :: rest)).outcome s =
      (follow reduce setting depth (origin? s name) rest).outcome s := rfl

theorem outcome_follow_none (segments : List Node) (s : State) :
    (follow reduce setting depth none segments).outcome s = (.ok none, s) := by
  cases segments <;> rfl

theorem outcome_follow_name (cursor : Cursor) (name : String) (rest : List Node) (s : State) :
    (follow reduce setting depth (some cursor) (.segment name :: rest)).outcome s =
      (do follow reduce setting depth
            (← advance reduce setting depth (.name name) cursor) rest).outcome s := rfl

theorem force_of_free {v : Value} (hv : v.Every fun _ => False) : force reduce v = pure v := by
  cases v
  case node tree => exact absurd rfl (Value.ne_node_of_free hv tree)
  all_goals rfl

theorem outcome_follow_value {v : Value} (hv : v.Every fun _ => False) (names : List String)
    (s : State) : (follow reduce setting depth (some (.value v)) (names.map .segment)).outcome s =
      (.ok (v.pointer? names), s) := by
  induction names generalizing v with
  | nil =>
    have hvalue := outcome_reduceValue_of_free reduce hv s
    rw [List.map_nil, follow, finish, Eval.outcome_bind_ok hvalue]
    rfl
  | cons name rest ih =>
    have hselect : v.select? (.name name) = v.map?.bind (Table.get? · name) := by
      cases v <;> rfl
    have hadvance : (advance reduce setting depth (.name name) (.value v)).outcome s =
        (.ok ((v.select? (.name name)).map .value), s) := by
      rw [advance, force_of_free reduce hv]
      rfl
    have hpointer :
        v.pointer? (name :: rest) = (v.select? (.name name)).bind (·.pointer? rest) := by
      rw [hselect, Option.bind_assoc]
      rfl
    rw [List.map_cons, outcome_follow_name, Eval.outcome_bind_ok hadvance, hpointer]
    cases hchild : v.select? (.name name) with
    | none => exact outcome_follow_none reduce setting depth _ s
    | some child => exact ih (hv.select? hchild)

theorem outcome_settle_succ {path : Path} {v : Value} {s : State} (depth : ℕ)
    (hslot : s.document.slot? path = some v) (hv : ∀ tree, v ≠ .node tree) :
    (settle reduce (depth + 1) path).outcome s =
      ((childSteps v).forM fun step => settle reduce depth (path ++ [step])).outcome s := by
  rw [settle, Eval.outcome_bind_ok (outcome_slot? hslot)]
  cases v
  case node tree => exact absurd rfl (hv tree)
  all_goals rfl

theorem outcome_forM_of_forall {β : Type} {xs : List β} {f : β → Eval Unit} {s : State}
    (h : ∀ x ∈ xs, (f x).outcome s = (.ok (), s)) : (xs.forM f).outcome s = (.ok (), s) := by
  induction xs with
  | nil => rfl
  | cons x rest ih =>
    obtain ⟨hx, hrest⟩ := List.forall_mem_cons.mp h
    have hcons : (x :: rest).forM f = f x >>= fun _ => rest.forM f := rfl
    rw [hcons, Eval.outcome_bind_ok hx, ih hrest]

theorem outcome_settle_of_free {path : Path} {v : Value} {s : State} {depth : ℕ}
    (hslot : s.document.slot? path = some v) (hfree : v.Every fun _ => False)
    (hdepth : v.size ≤ depth) : (settle reduce depth path).outcome s = (.ok (), s) := by
  induction depth generalizing path v with
  | zero => exact absurd v.size_pos (by omega)
  | succ depth ih =>
    rw [outcome_settle_succ reduce depth hslot (Value.ne_node_of_free hfree)]
    refine outcome_forM_of_forall fun step hstep => ?_
    obtain ⟨c, hc⟩ := child?_of_mem_childSteps hstep
    have hsmaller := Value.size_lt_of_child? hc
    exact ih (by rw [Document.slot?_append, hslot, Option.bind_some, hc]) (hfree.child? hc)
      (by omega)

theorem outcome_evaluate_reference (segments : List Node) (s : State) :
    (evaluate reduce [.reference segments]).outcome s =
      (reduce (.reference segments)).outcome s := by
  simp only [evaluate, evaluateFrom]
  rw [Eval.outcome_bind]
  rcases (reduce (.reference segments)).outcome s with ⟨_ | _, _⟩ <;> rfl

end Reduction
end HclEval
