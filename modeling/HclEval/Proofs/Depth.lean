import HclEval.Proofs.Refinement

/-!
How deep an evaluation may go is of no concern once it is deep enough: a deeper one comes to the
same end in the same state. So a family of evaluations, each deeper than the ones before, comes to
one end at most.
-/
namespace HclEval

open Filter Reduction

namespace Coupling

def alongside (strict : Stop → Prop) : Coupling where
  __ := refinement
  strict := strict

variable {strict : Stop → Prop} {setting : Setting}

theorem alongside_sim {α : Type} {a : Eval α} (ha : a.Refining)
    (hbalanced : ∀ s : State, s.Balanced (a.outcome s).2) :
    (alongside strict).Sim (fun _ _ => True) a fun _ => a := by
  rintro s t rfl
  exact .of_outcome rfl rfl rfl ⟨hbalanced s, ha s⟩ (hbalanced s) fun _ _ => trivial

theorem refining_of_document_eq {α : Type} {a : Eval α}
    (h : ∀ s, (a.outcome s).2.document = s.document) : a.Refining := by
  intro s
  rw [h s]
  exact .refl _

theorem alongside_invoke (name : String) (values : List Value) :
    (alongside strict).Sim (fun _ _ => True) (invoke setting name values)
      fun _ => invoke setting name values := by
  cases hf : setting.functions.get? name with
  | none =>
    rw [invoke_of_none hf]
    exact .pure fun _ => trivial
  | some f =>
    refine alongside_sim (refining_of_document_eq fun s => ?_) fun s => ?_
    · rw [outcome_invoke hf]
    · rw [outcome_invoke hf]
      exact ⟨rfl, rfl⟩

theorem alongside_concord {limit : ℕ} (hlimit : limit = setting.maxDepth ∨
      setting.maxDepth ≤ limit ∧ ¬ strict (.error (.recursionLimit setting.maxDepth))) :
    (alongside strict).Concord setting { setting with maxDepth := limit } where
  vars_eq := rfl
  lookups_eq := rfl
  limit := hlimit
  document_eq h := by rw [h]
  cache_eq h := by rw [h]
  resolving_eq h := by rw [h]
  scopes_eq _ h := by rw [h]
  vars := Value.every_true _
  document _ := (Value.every_true _).staged fun _ h => h
  cache _ := Value.every_true _
  scopes _ _ := Value.every_true _
  unresolved _ := trivial
  put h _ h' _ _ := by
    cases h
    cases h'
    rfl
  consult _ _ _ := (alongside_sim (refining_of_document_eq fun _ => rfl) fun _ => ⟨rfl, rfl⟩).mono
    fun _ _ _ => Value.every_true _
  enter h _ _ := by
    cases h
    rfl
  leave h h' := by
    cases h
    cases h'
    rfl
  becomes_of_every _ _ := trivial
  invoke name values _ := (alongside_invoke name values).mono fun _ _ _ => Value.every_true _
  scope _ := by
    refine Scoped.of_rel (fun s t scope hst _ => ?_) fun s t s' t' hst hst' => ?_
    · cases hst
      rfl
    · cases hst
      cases hst'
      rfl

theorem alongside_deep (hstrict : ¬ strict .exhausted) {depth depth' : ℕ}
    (hdepth : depth ≤ depth') :
    (alongside strict).Deep depth fun _ => depth' :=
  .of_forall fun _ => .inr ⟨hdepth, hstrict⟩

theorem alongside_reduceNode (hstrict : ¬ strict .exhausted) {limit : ℕ}
    (hlimit : limit = setting.maxDepth ∨
      setting.maxDepth ≤ limit ∧ ¬ strict (.error (.recursionLimit setting.maxDepth)))
    {depth depth' : ℕ} (hdepth : depth ≤ depth') (tree : Node) :
    (alongside strict).Sim (fun _ _ => True) (reduceNode setting depth tree)
      fun _ => reduceNode { setting with maxDepth := limit } depth' tree :=
  Sim.reduceNode (alongside_deep hstrict hdepth) (alongside_concord hlimit) trivial

theorem outcome_of_alongside {α : Type} {post : α → State → Prop} {a b : Eval α}
    (h : (alongside strict).Sim post a fun _ => b) {s s' : State} {r : Except Stop α}
    (ha : a.outcome s = (r, s')) (hr : ∀ e, r = .error e → strict e) : b.outcome s = (r, s') := by
  obtain ⟨_, hsame, rfl, -⟩ := h s s rfl r s' ha hr
  exact eventually_const.1 hsame

end Coupling

namespace Eval

variable {α β : Type} {a b : ℕ → Eval α} {s s₁ s₂ : State}

def Deepens (a b : Eval α) : Prop :=
  ∀ s s' r, a.outcome s = (r, s') → r ≠ .error .exhausted → b.outcome s = (r, s')

theorem Deepens.of_alongside {post : α → State → Prop} {a b : Eval α}
    (h : (Coupling.alongside (· ≠ .exhausted)).Sim post a fun _ => b) : a.Deepens b :=
  fun _ _ _ ha hr => Coupling.outcome_of_alongside h ha fun _ he hdeep => hr (by rw [he, hdeep])

theorem Deepens.ok {a b : Eval α} (h : a.Deepens b) {x : α} {s' : State}
    (ha : a.outcome s = (.ok x, s')) : b.outcome s = (.ok x, s') := h _ _ _ ha nofun

/-- Some evaluation of a family comes to this value or error, and leaves this state. -/
def ComesTo (a : ℕ → Eval α) (s : State) (r : Except Error α) (s' : State) : Prop :=
  ∃ depth, (a depth).outcome s = (r.mapError Stop.error, s')

theorem mapError_ne_exhausted (r : Except Error α) : r.mapError Stop.error ≠ .error .exhausted := by
  cases r <;> nofun

theorem mapError_injective {r r' : Except Error α}
    (h : r.mapError Stop.error = r'.mapError Stop.error) : r = r' := by
  cases r <;> cases r' <;> cases h <;> rfl

theorem ComesTo.unique (ha : ∀ {depth depth'}, depth ≤ depth' → (a depth).Deepens (a depth'))
    {r r' : Except Error α} (h : ComesTo a s r s₁) (h' : ComesTo a s r' s₂) :
    r = r' ∧ s₁ = s₂ := by
  obtain ⟨depth, h⟩ := h
  obtain ⟨depth', h'⟩ := h'
  have hdeep := ha (le_max_left depth depth') _ _ _ h (mapError_ne_exhausted r)
  have hdeep' := ha (le_max_right depth depth') _ _ _ h' (mapError_ne_exhausted r')
  obtain ⟨hr, hs⟩ := Prod.mk.inj (hdeep.symm.trans hdeep')
  exact ⟨mapError_injective hr, hs⟩

theorem ComesTo.bind {f : α → Eval β} {s' : State}
    (hab : ∀ {r s'}, ComesTo a s r s' → ComesTo b s r s') {r : Except Error β}
    (h : ComesTo (fun depth => a depth >>= f) s r s') :
    ComesTo (fun depth => b depth >>= f) s r s' := by
  obtain ⟨depth, h⟩ := h
  dsimp only at h
  rcases ha : (a depth).outcome s with ⟨e | x, s₁⟩
  · rw [outcome_bind_error ha] at h
    obtain ⟨he, rfl⟩ := Prod.mk.inj h
    cases r with
    | ok y => cases he
    | error error =>
      cases he
      obtain ⟨depth', hb⟩ := hab (r := .error error) ⟨depth, ha⟩
      exact ⟨depth', outcome_bind_error hb _⟩
  · rw [outcome_bind_ok ha] at h
    obtain ⟨depth', hb⟩ := hab (r := .ok x) ⟨depth, ha⟩
    exact ⟨depth', (outcome_bind_ok hb _).trans h⟩

end Eval

namespace Reduction

variable {setting : Setting} {depth depth' : ℕ} (hdepth : depth ≤ depth')
include hdepth

theorem reduceNode_alongside (tree : Node) :
    (Coupling.alongside (· ≠ .exhausted)).Sim (fun _ _ => True) (reduceNode setting depth tree)
      fun _ => reduceNode setting depth' tree :=
  Coupling.alongside_reduceNode (fun h => h rfl) (.inl rfl) hdepth tree

theorem reduceNode_deepens (tree : Node) :
    (reduceNode setting depth tree).Deepens (reduceNode setting depth' tree) :=
  .of_alongside (reduceNode_alongside hdepth tree)

end Reduction
end HclEval
