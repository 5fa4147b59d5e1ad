import HclEval.Proofs.Coupling.Invariant

/-!
What is left of the syntax after both passes: references that lead nowhere. Data lookups never
see anything else either, whatever trees variables and the results of other lookups hold.
-/
namespace HclEval

open Reduction

/-- A value in which nothing is left to evaluate but references that lead nowhere. -/
abbrev Value.Evaluated (v : Value) : Prop := v.Every fun tree => tree.isReference = true

def Call.LookupsEvaluated (calls all : List Call) : Prop :=
  ∃ new, all = calls ++ new ∧
    ∀ provider inst properties, Call.lookup provider inst properties ∈ new →
      (Value.map properties).Evaluated

theorem Call.LookupsEvaluated.append {calls all : List Call} (h : LookupsEvaluated calls all)
    {call : Call} (hcall : ∀ provider inst properties, call = .lookup provider inst properties →
      (Value.map properties).Evaluated) : LookupsEvaluated calls (all ++ [call]) := by
  obtain ⟨new, rfl, hnew⟩ := h
  refine ⟨new ++ [call], by rw [List.append_assoc], fun provider inst properties hmem => ?_⟩
  rcases List.mem_append.1 hmem with hmem | hmem
  · exact hnew provider inst properties hmem
  · exact hcall provider inst properties (List.mem_singleton.1 hmem).symm

structure State.Sound (calls : List Call) (s : State) : Prop where
  document : (Value.map s.document).Staged (fun _ => True) fun tree => tree.isReference = true
  calls : Call.LookupsEvaluated calls s.calls

namespace Coupling

def leftovers (calls : List Call) : Coupling where
  rel s t := s = t ∧ s.Sound calls
  strict _ := True
  trees _ := True
  results tree := tree.isReference = true
  becomes _ v := v.Evaluated
  hereditary := Node.hereditary_true
  trees_of_results := fun _ _ => trivial
  every_of_becomes := fun _ _ h => h
  closed := fun _ _ _ hv hvw => hvw.every (fun _ _ h => h) hv

theorem leftovers_invariant {setting : Setting} (calls : List Call)
    (hfunctions : ∀ name f calls values v, setting.functions.get? name = some f →
      (∀ u ∈ values, u.Evaluated) → f calls values = .ok v → v.Evaluated) :
    (leftovers calls).Invariant setting (State.Sound calls) where
  rel_iff _ _ := .rfl
  strict _ := trivial
  vars := Value.every_true _
  unresolved _ := rfl
  becomes_of_every _ h := h
  results hf hvalues hv := hfunctions _ _ _ _ _ hf hvalues hv
  consulted _ _ _ := Value.every_true _
  document h := h.document
  cache _ := Value.every_true _
  scopes _ _ _ := Value.every_true _
  put := by
    intro s s' path tree v _ hslot hs' _ hv
    refine ⟨?_, hs'.calls⟩
    rw [Document.map_put _ (Document.ne_nil_of_slot?_node hslot)]
    exact hs'.document.put (Value.Every.staged (fun _ _ => trivial) hv)
  call := by
    intro s name values hs _
    exact ⟨hs.document, hs.calls.append fun _ _ _ h => by cases h⟩
  lookup := by
    intro s provider inst properties v hs hproperties _
    refine ⟨hs.document, hs.calls.append fun _ _ _ h => ?_⟩
    cases h
    exact hproperties
  enter h _ _ := ⟨h.document, h.calls⟩
  leave _ h := ⟨h.document, h.calls⟩
  enterScope h _ := ⟨h.document, h.calls⟩
  leaveScope _ h := ⟨h.document, h.calls⟩

end Coupling

/-- If functions make of evaluated arguments nothing that is still to be evaluated, then a document
that has been evaluated, however deep, holds no syntax but references that lead nowhere, and neither
do the properties that data lookups are given on the way, however the evaluation ends. -/
theorem only_references_survive (setting : Setting) (depth : ℕ) (calls : List Call)
    (nodes : List Node)
    (hfunctions : ∀ name f calls values v, setting.functions.get? name = some f →
      (∀ u ∈ values, u.Evaluated) → f calls values = .ok v → v.Evaluated) :
    ((runWithin setting depth calls nodes).1 = .ok () →
      (Value.map (runWithin setting depth calls nodes).2.document).Evaluated) ∧
      ∃ new, (runWithin setting depth calls nodes).2.calls = calls ++ new ∧
        ∀ provider inst properties, Call.lookup provider inst properties ∈ new →
          (Value.map properties).Evaluated := by
  have hstart : State.Sound calls { calls } :=
    ⟨Value.staged_map_nil, [], (List.append_nil calls).symm, by simp⟩
  have hrun := (Coupling.leftovers_invariant calls hfunctions).reduceDocument
    (fun h htable => ⟨htable, h.calls⟩) depth nodes (fun _ _ => trivial) hstart
  exact ⟨hrun.2, hrun.1.calls⟩

def echoSetting : Setting :=
  ⟨[("first", fun _ values => .ok (values.headD .null))],
    [("echo", fun _ properties => .ok properties)],
    [("tree", .node (.group [.literal .boolean "true"]))], 64⟩

def echoNodes : List Node :=
  [.named "a" [.reference [.segment "data", .segment "echo", .segment "x", .segment "k"]] none,
    .named "b" [.reference [.segment "missing"]] none,
    .named "c" [.reference [.segment "var", .segment "tree"]] none,
    .block ["data", "echo", "x"]
      [.named "k" [.call "first" [.array [.reference [.segment "missing"]]] false] none] none]

theorem only_references_survive_echo :
    (run echoSetting [] echoNodes).1 = .ok () ∧
      (Value.map (run echoSetting [] echoNodes).2.document).Evaluated ∧
        (run echoSetting [] echoNodes).2.calls.length = 2 := by
  have hfunctions : ∀ name f calls values v, echoSetting.functions.get? name = some f →
      (∀ u ∈ values, u.Evaluated) → f calls values = .ok v → v.Evaluated := by
    intro name f calls values v hf hvalues hv
    simp only [echoSetting, Table.get?] at hf
    split at hf <;> cases hf
    cases hv
    cases values with
    | nil => exact Value.every_null
    | cons u _ => exact hvalues u (List.mem_cons_self ..)
  have hok : (run echoSetting [] echoNodes).1 = .ok () := by decide +kernel
  exact ⟨hok, (only_references_survive echoSetting _ [] echoNodes hfunctions).1 hok,
    by decide +kernel⟩

end HclEval
