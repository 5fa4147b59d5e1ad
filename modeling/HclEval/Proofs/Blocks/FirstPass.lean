import HclEval.Proofs.Expressions.Stillness
import HclEval.Proofs.Meaning.Building
import HclEval.Proofs.Refinement

/-!
The first pass has no document. Nothing is stored and nothing is looked up, so if functions answer
by their arguments alone, what a body builds does not depend on what was built before it.
-/
namespace HclEval

open Filter Reduction

structure State.Starting (s : State) (cache : LookupCache) (t : State) : Prop where
  document : s.document = [] ∧ t.document = []
  cache : s.cache = cache ∧ t.cache = cache
  scopes : t.scopes = s.scopes
  resolving : t.resolving = s.resolving

theorem State.Starting.refl {s : State} (h : s.document = []) : s.Starting s.cache s :=
  ⟨⟨h, h⟩, ⟨rfl, rfl⟩, rfl, rfl⟩

theorem Document.slot?_nil {path : Path} (h : path ≠ []) : slot? [] path = none := by
  match path with
  | .key _ :: _ | .index _ :: _ => rfl

namespace Reduction

theorem dataPath?_nil (provider inst : String) :
    dataPath? [] provider inst = some [.key "data", .key provider, .key inst] := rfl

theorem outcome_dataProperties?_of_nil (reduce : Node → Eval Value) (depth : ℕ)
    (provider inst : String) {s : State} (hs : s.document = []) :
    (dataProperties? reduce depth provider inst).outcome s =
      (if depth = 0 then .error .exhausted else .ok none, s) := by
  have hpath : [Step.key "data", .key provider, .key inst] ≠ [] := by simp
  have hslot : s.document.slot? [.key "data", .key provider, .key inst] = none := by
    rw [hs, Document.slot?_nil hpath]
  unfold dataProperties?
  rw [Eval.outcome_get_bind, hs, dataPath?_nil]
  cases depth with
  | zero => rfl
  | succ depth =>
    simp only [settle, bind_assoc]
    rw [Eval.outcome_bind_ok (outcome_slot? hslot)]
    dsimp only
    rw [Eval.outcome_bind_ok (Eval.outcome_pure () s), Eval.outcome_bind_ok (outcome_slot? hslot)]
    rfl

end Reduction

namespace Coupling

def firstPass (cache : LookupCache) : Coupling where
  __ := refinement
  rel s t := s.Starting cache t
  strict _ := False

variable {setting : Setting} {cache : LookupCache}

theorem firstPass_located : (firstPass cache).Located where
  document_eq h := by rw [h.document.1, h.document.2]
  document _ := (Value.every_true _).staged fun _ h => h
  put h hslot := by
    rw [h.document.1, Document.slot?_nil (Document.ne_nil_of_slot?_node hslot)] at hslot
    cases hslot

theorem firstPass_directed : (firstPass cache).Directed setting setting where
  document_eq h := by rw [h.document.1, h.document.2]
  vars_eq := rfl
  limit := .inl rfl
  cache_eq h := by rw [h.cache.1, h.cache.2]
  resolving_eq h := h.resolving
  scopes_eq _ h := by rw [h.scopes]
  vars := Value.every_true _
  cache _ := Value.every_true _
  scopes _ _ := Value.every_true _
  unresolved _ := trivial
  enter h _ _ := ⟨h.document, h.cache, h.scopes, by rw [h.resolving]⟩
  leave h h' := ⟨h'.document, h'.cache, h'.scopes, h.resolving⟩

theorem firstPass_scoped : (firstPass cache).Scoped := by
  refine Scoped.of_rel (fun s t scope hst _ => ?_) fun s t s' t' hst hst' => ?_
  · exact ⟨hst.document, hst.cache, by rw [hst.scopes], hst.resolving⟩
  · exact ⟨hst'.document, hst'.cache, hst.scopes, hst'.resolving⟩

theorem firstPass_invoke (hsetting : setting.HistoryFree) (name : String) (values : List Value) :
    (firstPass cache).Sim (fun _ _ => True) (invoke setting name values)
      fun _ => invoke setting name values := by
  cases hf : setting.functions.get? name with
  | none =>
    rw [invoke_of_none hf]
    exact .pure fun _ => trivial
  | some f =>
    intro s t hst
    have houtcome := outcome_invoke_of_historyFree hsetting hf values
    exact .of_outcome (houtcome s) (houtcome t) ⟨hst.document, hst.cache, hst.scopes, hst.resolving⟩
      ⟨⟨rfl, rfl⟩, .refl _⟩ ⟨rfl, rfl⟩ fun _ _ => trivial

theorem firstPass_dataLookup (reduce : Node → Eval Value) (depth : ℕ) (provider inst : String) :
    (firstPass cache).Sim (fun _ _ => True) (dataLookup reduce setting depth provider inst)
      fun _ => dataLookup reduce setting depth provider inst := by
  intro s t hst
  simp only [dataLookup_eq]
  refine At.get_bind ?_
  rw [(firstPass_directed : (firstPass cache).Directed setting setting).cache_eq hst]
  cases hcache : s.cache.get? provider inst with
  | some v => exact .pure hst trivial
  | none =>
    cases setting.lookups.get? provider with
    | none => exact .pure hst trivial
    | some lookup =>
      have hproperties : (firstPass cache).At s t (fun properties? _ => properties? = none)
          (dataProperties? reduce depth provider inst)
          fun _ => dataProperties? reduce depth provider inst := by
        refine .of_outcome
          (outcome_dataProperties?_of_nil reduce depth provider inst hst.document.1)
          (outcome_dataProperties?_of_nil reduce depth provider inst hst.document.2) hst (.refl _)
          (.refl _) fun _ h => ?_
        split at h <;> cases h
        rfl
      refine hproperties.bind ?_
      rintro _ s t rfl hst -
      exact .pure hst trivial

section
variable (hsetting : setting.HistoryFree)
include hsetting

theorem firstPass_reduceNode (depth : ℕ) (tree : Node) :
    (firstPass cache).Sim (fun _ _ => True) (reduceNode setting depth tree)
      fun _ => reduceNode setting depth tree := by
  induction depth generalizing tree with
  | zero => exact .throw _
  | succ depth ih =>
    simp only [Reduction.reduceNode, reduceStep_eq]
    have hlooksUp : (firstPass cache).LooksUp setting setting depth (fun _ => depth)
        (reduceNode setting depth) fun _ => reduceNode setting depth :=
      fun _ provider inst => (firstPass_dataLookup _ depth provider inst).mono
        fun _ _ _ _ _ => Value.every_true _
    exact (Sim.stepWith (fun tree _ => ih tree)
      (fun segments hr => firstPass_directed.resolveReference (fun tree _ => ih tree)
        (firstPass_located.settling fun tree _ => ih tree) (.refl _ depth) hlooksUp hr)
      (fun name values _ => (firstPass_invoke hsetting name values).mono
        fun _ _ _ => Value.every_true _)
      (fun _ => firstPass_scoped) trivial).mono fun _ _ _ => trivial

theorem firstPass_structureEach (depth : ℕ) (nodes : List Node) :
    (firstPass cache).Fill (fun _ => True) (structureEach (reduceNode setting depth) nodes)
      fun _ => structureEach (reduceNode setting depth) nodes :=
  .structureEach (.of_becomes fun tree _ => firstPass_reduceNode hsetting depth tree) nodes
    fun _ _ => trivial

end

end Coupling

namespace Reduction

theorem structureEach_again {setting : Setting} (hsetting : setting.HistoryFree) {depth : ℕ}
    {nodes : List Node} {cache : LookupCache} {table : Table Value} {s s' t : State}
    (hst : s.Starting cache t)
    (h : (structureEach (reduceNode setting depth) nodes).outcome [] s = ((.ok (), table), s')) :
    ∃ t', (structureEach (reduceNode setting depth) nodes).outcome [] t = ((.ok (), table), t') ∧
      s.Starting cache t' := by
  obtain ⟨t', hsame, hrel, hadv, hbal, -⟩ := Coupling.firstPass_structureEach hsetting depth nodes
    s t [] hst (by simp) _ _ _ h nofun
  exact ⟨t', eventually_const.1 hsame, ⟨hst.document.1, hrel.document.2⟩,
    ⟨hst.cache.1, hrel.cache.2⟩, hbal.scopes.trans hst.scopes, hbal.resolving.trans hst.resolving⟩

end Reduction
end HclEval
