import HclEval.Proofs.Coupling.Evaluation

/-!
An evaluation coupled with itself. The states it may be in satisfy an invariant, which every
single change of a state has to keep; then whole evaluations keep it, fill in the document, and
have the results that the coupling asks for.
-/
namespace HclEval.Coupling

open Filter Reduction

structure Alone (C : Coupling) (inv : State → Prop) : Prop where
  rel_iff : ∀ s t, C.rel s t ↔ s = t ∧ inv s
  strict : ∀ e, C.strict e

/-- An invariant that every single change of a state keeps. -/
structure Invariant (C : Coupling) (setting : Setting) (inv : State → Prop) : Prop
    extends C.Alone inv where
  vars : (Value.map setting.vars).Every C.trees
  unresolved : ∀ {segments}, C.trees (.reference segments) → C.results (.reference segments)
  becomes_of_every : ∀ {tree v}, C.trees tree → v.Every C.results → C.becomes tree v
  results : ∀ {name f calls values v}, setting.functions.get? name = some f →
    (∀ v ∈ values, v.Every C.results) → f calls values = .ok v → v.Every C.results
  consulted : ∀ {provider lookup calls properties result},
    setting.lookups.get? provider = some lookup → (Value.map properties).Every C.results →
      lookup calls properties = .ok result → (Value.map result).Every C.trees
  document : ∀ {s}, inv s → (Value.map s.document).Staged C.trees C.results
  cache : ∀ {s}, inv s → s.cache.toValue.Every C.trees
  scopes : ∀ {s}, inv s → ∀ scope ∈ s.scopes, (Value.map scope).Every C.trees
  put : ∀ {s s' path tree v}, inv s → s.document.slot? path = some (.node tree) → inv s' →
    s.Advance C.becomes s' → C.becomes tree v →
      inv { s' with document := s'.document.put path v }
  call : ∀ {s} name {values}, inv s → (∀ v ∈ values, v.Every C.results) →
    inv { s with calls := s.calls ++ [.function name values] }
  lookup : ∀ {s} provider inst {properties v}, inv s → (Value.map properties).Every C.results →
    v.Every C.trees →
      inv { s with
        calls := s.calls ++ [.lookup provider inst properties]
        cache := s.cache.insert provider inst v }
  enter : ∀ {s path}, inv s → path ∉ s.resolving → s.resolving.length < setting.maxDepth →
    inv { s with resolving := path :: s.resolving }
  leave : ∀ {s s'}, inv s → inv s' → inv { s' with resolving := s.resolving }
  enterScope : ∀ {s scope}, inv s → (Value.map scope).Every C.results →
    inv { s with scopes := scope :: s.scopes }
  leaveScope : ∀ {s s'}, inv s → inv s' → inv { s' with scopes := s.scopes }

variable {C : Coupling} {setting : Setting} {inv : State → Prop} {α : Type}

namespace Alone

variable (I : C.Alone inv)
include I

theorem sim_iff {post : α → State → Prop} {a : Eval α} :
    (C.Sim post a fun _ => a) ↔ ∀ s r s', inv s → a.outcome s = (r, s') →
      inv s' ∧ s.Advance C.becomes s' ∧ ∀ x, r = .ok x → post x s' := by
  constructor
  · intro h s r s' hs ha
    obtain ⟨t', -, hrel, hadv, -, hpost⟩ :=
      h s s ((I.rel_iff s s).2 ⟨rfl, hs⟩) r s' ha fun e _ => I.strict e
    exact ⟨((I.rel_iff s' t').1 hrel).2, hadv, hpost⟩
  · intro h s t hst r s' ha _
    obtain ⟨rfl, hs⟩ := (I.rel_iff s t).1 hst
    obtain ⟨hs', hadv, hpost⟩ := h s r s' hs ha
    exact ⟨s', .of_forall fun _ => ha, (I.rel_iff s' s').2 ⟨rfl, hs'⟩, hadv, hadv.toBalanced, hpost⟩

section
variable {depth : ℕ} (hnode : ∀ tree, C.trees tree → C.Sim (fun v _ => C.becomes tree v)
  (reduceNode setting depth tree) fun _ => reduceNode setting depth tree)
variable (hdocument : ∀ {s table}, inv s → (Value.map table).Staged C.trees C.results →
  inv { s with document := table })
include hnode hdocument

theorem structureDocument (nodes : List Node) (hn : ∀ node ∈ nodes, C.trees node) {s : State}
    (hs : inv s) : inv ((structureDocument setting depth nodes).outcome s).2 := by
  have hfill := Fill.structureEach (.of_becomes hnode) nodes hn
  obtain ⟨t', -, hrel, -, -, hstaged, -⟩ := hfill s s [] ((I.rel_iff s s).2 ⟨rfl, hs⟩) (by simp)
    _ _ _ rfl fun e _ => I.strict e
  exact hdocument ((I.rel_iff _ _).1 hrel).2 hstaged

theorem reduceDocument (A : C.Located) (nodes : List Node) (hn : ∀ node ∈ nodes, C.trees node)
    {s : State} (hs : inv s) :
    inv ((reduceDocument setting depth nodes).outcome s).2 ∧
      (((reduceDocument setting depth nodes).outcome s).1 = .ok () →
        (Value.map ((reduceDocument setting depth nodes).outcome s).2.document).Every
          C.results) := by
  have hfirst := I.structureDocument hnode hdocument nodes hn hs
  unfold Reduction.reduceDocument
  rcases ha : (Reduction.structureDocument setting depth nodes).outcome s with ⟨_ | _, s'⟩
  · rw [Eval.outcome_bind_error ha]
    rw [ha] at hfirst
    exact ⟨hfirst, fun h => by cases h⟩
  · rw [Eval.outcome_bind_ok ha]
    rw [ha] at hfirst
    obtain ⟨hinv, -, hpost⟩ := I.sim_iff.1 (.resolveDocument (.refl C depth) A hnode) s' _ _
      hfirst rfl
    exact ⟨hinv, hpost ()⟩

end

end Alone

namespace Invariant

variable (I : C.Invariant setting inv)
include I

theorem sim_invoke (name : String) {values : List Value}
    (hvalues : ∀ v ∈ values, v.Every C.results) :
    C.Sim C.Result (invoke setting name values) fun _ => invoke setting name values := by
  rw [I.sim_iff]
  intro s r s' hs ha
  cases hf : setting.functions.get? name with
  | none =>
    rw [invoke_of_none hf] at ha
    obtain ⟨rfl, rfl⟩ := Prod.mk.inj ha
    exact ⟨hs, .refl _, fun x hx => by cases hx; simp⟩
  | some f =>
    rw [outcome_invoke hf] at ha
    obtain ⟨rfl, rfl⟩ := Prod.mk.inj ha
    refine ⟨I.call name hs hvalues, ⟨⟨rfl, rfl⟩, .refl _⟩, fun x hx => ?_⟩
    exact I.results hf hvalues (ok_of_functionResult hx)

theorem sim_consult {provider inst : String} {lookup : Lookup} {properties : Table Value}
    (hlookup : setting.lookups.get? provider = some lookup)
    (hproperties : (Value.map properties).Every C.results) :
    C.Sim (fun v _ => v.Every C.trees) (consult lookup provider inst properties)
      fun _ => consult lookup provider inst properties := by
  rw [I.sim_iff]
  intro s r s' hs ha
  rw [outcome_consult] at ha
  obtain ⟨rfl, rfl⟩ := Prod.mk.inj ha
  have hv : (lookupValue (lookup s.calls properties)).Every C.trees := by
    cases hresult : lookup s.calls properties with
    | ok result => exact I.consulted hlookup hproperties hresult
    | error _ => simp [lookupValue]
  refine ⟨I.lookup provider inst hs hproperties hv, ⟨⟨rfl, rfl⟩, .refl _⟩, fun x hx => ?_⟩
  cases hx
  exact hv

theorem opens : C.Scoped := by
  refine Scoped.of_rel (fun s t scope hst hscope => ?_) fun s t s' t' hst hst' => ?_
  · obtain ⟨rfl, hs⟩ := (I.rel_iff s t).1 hst
    exact (I.rel_iff _ _).2 ⟨rfl, I.enterScope hs hscope⟩
  · obtain ⟨rfl, hs⟩ := (I.rel_iff s t).1 hst
    obtain ⟨rfl, hs'⟩ := (I.rel_iff s' t').1 hst'
    exact (I.rel_iff _ _).2 ⟨rfl, I.leaveScope hs hs'⟩

theorem concord : C.Concord setting setting where
  vars_eq := rfl
  lookups_eq := rfl
  limit := .inl rfl
  document_eq := fun {s t} h => by rw [((I.rel_iff s t).1 h).1]
  cache_eq := fun {s t} h => by rw [((I.rel_iff s t).1 h).1]
  resolving_eq := fun {s t} h => by rw [((I.rel_iff s t).1 h).1]
  scopes_eq := fun {s t _ _} _ h => by rw [((I.rel_iff s t).1 h).1]
  vars := I.vars
  document := fun {s t} h => I.document ((I.rel_iff s t).1 h).2
  cache := fun {s t} h => I.cache ((I.rel_iff s t).1 h).2
  scopes := fun {s t name v} h hv => by
    obtain ⟨scope, hmem, hget⟩ := List.exists_of_findSome?_eq_some hv
    have hscope := I.scopes ((I.rel_iff s t).1 h).2 scope hmem
    exact (Value.every_map scope).1 hscope _ (Table.mem_of_get? hget)
  unresolved := I.unresolved
  put := fun {s t s' t' path tree v} hst hslot hst' hadv hv => by
    obtain ⟨rfl, hs⟩ := (I.rel_iff s t).1 hst
    obtain ⟨rfl, hs'⟩ := (I.rel_iff s' t').1 hst'
    exact (I.rel_iff _ _).2 ⟨rfl, I.put hs hslot hs' hadv hv⟩
  consult := fun _ => I.sim_consult
  enter := fun {s t path} hst hpath hlimit => by
    obtain ⟨rfl, hs⟩ := (I.rel_iff s t).1 hst
    exact (I.rel_iff _ _).2 ⟨rfl, I.enter hs hpath hlimit⟩
  leave := fun {s t s' t'} hst hst' => by
    obtain ⟨rfl, hs⟩ := (I.rel_iff s t).1 hst
    obtain ⟨rfl, hs'⟩ := (I.rel_iff s' t').1 hst'
    exact (I.rel_iff _ _).2 ⟨rfl, I.leave hs hs'⟩
  becomes_of_every := I.becomes_of_every
  invoke := fun name _ => I.sim_invoke name
  scope := fun _ => I.opens

theorem sim_reduceNode (depth : ℕ) (tree : Node) (htree : C.trees tree) :
    C.Sim (fun v _ => C.becomes tree v) (reduceNode setting depth tree)
      fun _ => reduceNode setting depth tree :=
  .reduceNode (.refl C depth) I.concord htree

theorem structureDocument
    (hdocument : ∀ {s table}, inv s → (Value.map table).Staged C.trees C.results →
      inv { s with document := table })
    (depth : ℕ) (nodes : List Node) (hn : ∀ node ∈ nodes, C.trees node) {s : State} (hs : inv s) :
    inv ((structureDocument setting depth nodes).outcome s).2 :=
  I.toAlone.structureDocument (I.sim_reduceNode depth) hdocument nodes hn hs

theorem reduceDocument
    (hdocument : ∀ {s table}, inv s → (Value.map table).Staged C.trees C.results →
      inv { s with document := table })
    (depth : ℕ) (nodes : List Node) (hn : ∀ node ∈ nodes, C.trees node) {s : State} (hs : inv s) :
    inv ((reduceDocument setting depth nodes).outcome s).2 ∧
      (((reduceDocument setting depth nodes).outcome s).1 = .ok () →
        (Value.map ((reduceDocument setting depth nodes).outcome s).2.document).Every
          C.results) :=
  I.toAlone.reduceDocument (I.sim_reduceNode depth) hdocument I.concord.toLocated nodes hn hs

end Invariant

end HclEval.Coupling
