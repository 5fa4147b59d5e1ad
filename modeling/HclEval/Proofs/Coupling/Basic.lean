import HclEval.Proofs.Filling
import HclEval.Reduction.State
import Mathlib.Order.Filter.AtTopBot.Basic

/-!
Two evaluations side by side. A coupling relates the states of a first evaluation to those of a
second, and says which trees are evaluated, what their results hold and what they become in the
document. A first evaluation is coupled with a family of second ones if all but finitely many of
the family end as it does, in related states. A property of a single evaluation is the coupling
of an evaluation with itself; a family whose members differ in their depth lets the second one
be as deep as it has to be.
-/
namespace HclEval

open Filter

namespace Eval

variable {α β : Type}

def outcome (a : Eval α) (s : State) : Except Stop α × State := a.run.run s

@[simp] theorem outcome_pure (x : α) (s : State) : (pure x : Eval α).outcome s = (.ok x, s) := rfl

@[simp] theorem outcome_throw (e : Stop) (s : State) :
    (throw e : Eval α).outcome s = (.error e, s) := rfl

@[simp] theorem outcome_fail (e : Error) (s : State) :
    (fail e : Eval α).outcome s = (.error (.error e), s) := rfl

@[simp] theorem outcome_get (s : State) : (get : Eval State).outcome s = (.ok s, s) := rfl

@[simp] theorem outcome_modify (f : State → State) (s : State) :
    (modify f : Eval Unit).outcome s = (.ok (), f s) := rfl

theorem outcome_bind (a : Eval α) (f : α → Eval β) (s : State) :
    (a >>= f).outcome s =
      match a.outcome s with
      | (.ok x, s') => (f x).outcome s'
      | (.error e, s') => (.error e, s') := by
  simp only [outcome, ExceptT.run_bind, StateT.run_bind]
  rcases a.run.run s with ⟨x | x, s'⟩ <;> rfl

theorem outcome_bind_ok {a : Eval α} {s s' : State} {x : α} (h : a.outcome s = (.ok x, s'))
    (f : α → Eval β) : (a >>= f).outcome s = (f x).outcome s' := by
  rw [outcome_bind, h]

theorem outcome_bind_error {a : Eval α} {s s' : State} {e : Stop}
    (h : a.outcome s = (.error e, s')) (f : α → Eval β) :
    (a >>= f).outcome s = (.error e, s') := by
  rw [outcome_bind, h]

theorem outcome_bind_eq_ok {a : Eval α} {f : α → Eval β} {s s'' : State} {y : β} :
    (a >>= f).outcome s = (.ok y, s'') ↔
      ∃ x s', a.outcome s = (.ok x, s') ∧ (f x).outcome s' = (.ok y, s'') := by
  constructor
  · intro h
    rcases ha : a.outcome s with ⟨e | x, s'⟩
    · rw [outcome_bind_error ha] at h
      cases h
    · rw [outcome_bind_ok ha] at h
      exact ⟨x, s', rfl, h⟩
  · rintro ⟨x, s', ha, hf⟩
    rw [outcome_bind_ok ha, hf]

theorem outcome_map_eq_ok {a : Eval α} {f : α → β} {s s' : State} {y : β} :
    (a >>= fun x => pure (f x)).outcome s = (.ok y, s') ↔
      ∃ x, a.outcome s = (.ok x, s') ∧ f x = y := by
  rw [outcome_bind_eq_ok]
  constructor
  · rintro ⟨x, s₁, hx, hy⟩
    cases hy
    exact ⟨x, hx, rfl⟩
  · rintro ⟨x, hx, rfl⟩
    exact ⟨x, s', hx, rfl⟩

@[simp] theorem outcome_get_bind (f : State → Eval β) (s : State) :
    ((get : Eval State) >>= f).outcome s = (f s).outcome s := rfl

theorem outcome_withScope (scope : Table Value) (a : Eval α) (s : State) :
    (withScope scope a).outcome s =
      let (r, s') := a.outcome { s with scopes := scope :: s.scopes }
      (r, { s' with scopes := s'.scopes.tail }) := rfl

theorem outcome_withReference (path : String) (a : Eval α) (s : State) :
    (withReference path a).outcome s =
      let (r, s') := a.outcome { s with resolving := path :: s.resolving }
      (r, { s' with resolving := s'.resolving.tail }) := rfl

end Eval

namespace State

structure Balanced (s s' : State) : Prop where
  scopes : s'.scopes = s.scopes
  resolving : s'.resolving = s.resolving

theorem Balanced.refl (s : State) : s.Balanced s := ⟨rfl, rfl⟩

theorem Balanced.trans {s s' s'' : State} (h : s.Balanced s') (h' : s'.Balanced s'') :
    s.Balanced s'' :=
  ⟨h'.scopes.trans h.scopes, h'.resolving.trans h.resolving⟩

structure Advance (m : Value.Becoming) (s s' : State) : Prop extends s.Balanced s' where
  document : (Value.map s.document).Fills m (.map s'.document)

variable {m : Value.Becoming}

theorem Advance.refl (s : State) : s.Advance m s := ⟨.refl s, .refl _⟩

theorem Advance.trans (hm : m.Closed) {s s' s'' : State} (h : s.Advance m s')
    (h' : s'.Advance m s'') : s.Advance m s'' :=
  ⟨h.toBalanced.trans h'.toBalanced, h.document.trans hm h'.document⟩

end State

/-- What is asked of two evaluations side by side. -/
structure Coupling where
  rel : State → State → Prop
  /-- Ways to stop in which the second has to follow the first. -/
  strict : Stop → Prop
  trees : Node → Prop
  results : Node → Prop
  becomes : Value.Becoming
  hereditary : Node.Hereditary trees
  trees_of_results : ∀ tree, results tree → trees tree
  every_of_becomes : ∀ tree v, becomes tree v → v.Every results
  closed : becomes.Closed

namespace Coupling

/-- The second evaluation may go as deep as the first, and deeper if it need not follow the first
to the bound of its depth. -/
def Deep (C : Coupling) (depth : ℕ) (depth' : ℕ → ℕ) : Prop :=
  ∀ᶠ i in atTop, depth' i = depth ∨ depth ≤ depth' i ∧ ¬ C.strict .exhausted

variable {C : Coupling} {α β : Type} {s t : State}

protected theorem Deep.refl (C : Coupling) (depth : ℕ) : C.Deep depth fun _ => depth :=
  .of_forall fun _ => .inl rfl

protected theorem Deep.pred {depth : ℕ} {depth' : ℕ → ℕ} (h : C.Deep (depth + 1) depth') :
    C.Deep depth (fun i => depth' i - 1) ∧ ∀ᶠ i in atTop, depth' i = depth' i - 1 + 1 := by
  refine ⟨h.mono fun i hi => ?_, h.mono fun i hi => by omega⟩
  have hpred : depth' i - 1 = depth ∨ depth ≤ depth' i - 1 ∧ ¬ C.strict .exhausted := by
    rcases hi with hi | ⟨hi, hstrict⟩
    · exact .inl (by omega)
    · exact .inr ⟨by omega, hstrict⟩
  exact hpred

/-- From two states the first evaluation and the family end alike, the document of the first is
filled in, and its result is as asked. -/
def At (C : Coupling) (s t : State) (post : α → State → Prop) (a : Eval α) (b : ℕ → Eval α) :
    Prop :=
  ∀ r s', a.outcome s = (r, s') → (∀ e, r = .error e → C.strict e) →
    ∃ t', (∀ᶠ i in atTop, (b i).outcome t = (r, t')) ∧ C.rel s' t' ∧
      s.Advance C.becomes s' ∧ t.Balanced t' ∧ ∀ x, r = .ok x → post x s'

def Sim (C : Coupling) (post : α → State → Prop) (a : Eval α) (b : ℕ → Eval α) : Prop :=
  ∀ s t, C.rel s t → C.At s t post a b

def Scoped (C : Coupling) : Prop :=
  ∀ {α : Type} (post : α → Prop) {a : Eval α} {b : ℕ → Eval α} {scope : Table Value},
    (Value.map scope).Every C.results → C.Sim (fun x _ => post x) a b →
      C.Sim (fun x _ => post x) (Eval.withScope scope a) fun i => Eval.withScope scope (b i)

abbrev Result (C : Coupling) (v : Value) (_ : State) : Prop := v.Every C.results

protected theorem At.pure {post : α → State → Prop} (h : C.rel s t) {x : α} (hx : post x s) :
    C.At s t post (pure x) fun _ => pure x := by
  intro r s' ha _
  obtain ⟨rfl, rfl⟩ := Prod.mk.inj ha
  exact ⟨t, .of_forall fun _ => rfl, h, .refl _, .refl t, fun y hy => by cases hy; exact hx⟩

protected theorem At.throw {post : α → State → Prop} (h : C.rel s t) (e : Stop) :
    C.At s t post (throw e) fun _ => throw e := by
  intro r s' ha _
  obtain ⟨rfl, rfl⟩ := Prod.mk.inj ha
  exact ⟨t, .of_forall fun _ => rfl, h, .refl _, .refl t, fun y hy => by cases hy⟩

protected theorem At.of_outcome {post : α → State → Prop} {a b : Eval α} {r : Except Stop α}
    {s' t' : State} (ha : a.outcome s = (r, s')) (hb : b.outcome t = (r, t')) (hrel : C.rel s' t')
    (hadv : s.Advance C.becomes s') (hbal : t.Balanced t') (hpost : ∀ x, r = .ok x → post x s') :
    C.At s t post a fun _ => b := by
  intro r' s'' h _
  rw [ha] at h
  obtain ⟨rfl, rfl⟩ := Prod.mk.inj h
  exact ⟨t', .of_forall fun _ => hb, hrel, hadv, hbal, hpost⟩

protected theorem At.exhausted {post : α → State → Prop} {b : ℕ → Eval α} {depth' : ℕ → ℕ}
    (h : C.rel s t) (hd : C.Deep 0 depth') (hb : ∀ i, depth' i = 0 → b i = throw Stop.exhausted) :
    C.At s t post (throw Stop.exhausted) b := by
  intro r s' ha he
  obtain ⟨rfl, rfl⟩ := Prod.mk.inj ha
  refine ⟨t, hd.mono fun i hi => ?_, h, .refl _, .refl t, fun y hy => by cases hy⟩
  have hzero : depth' i = 0 := hi.resolve_right fun hi => hi.2 (he _ rfl)
  rw [hb i hzero, Eval.outcome_throw]

protected theorem At.mono {post post' : α → State → Prop} {a : Eval α} {b : ℕ → Eval α}
    (h : C.At s t post a b) (hpost : ∀ x s', post x s' → post' x s') : C.At s t post' a b := by
  intro r s' ha he
  obtain ⟨t', hb, hrel, hs, ht, hx⟩ := h r s' ha he
  exact ⟨t', hb, hrel, hs, ht, fun x hr => hpost x s' (hx x hr)⟩

protected theorem At.reached {post : α → State → Prop} {a : Eval α} {b : ℕ → Eval α}
    (h : C.At s t post a b) :
    C.At s t (fun x s' => post x s' ∧ s.Advance C.becomes s' ∧ ∃ t', C.rel s' t') a b := by
  intro r s' ha he
  obtain ⟨t', hb, hrel, hs, ht, hx⟩ := h r s' ha he
  exact ⟨t', hb, hrel, hs, ht, fun x hr => ⟨hx x hr, hs, t', hrel⟩⟩

protected theorem At.congr {post : α → State → Prop} {a : Eval α} {b b' : ℕ → Eval α}
    (h : C.At s t post a b) (hb : ∀ᶠ i in atTop, b' i = b i) : C.At s t post a b' := by
  intro r s' ha he
  obtain ⟨t', ht, rest⟩ := h r s' ha he
  refine ⟨t', ?_, rest⟩
  filter_upwards [hb, ht] with i hi hit
  rw [hi, hit]

protected theorem At.bind {post : α → State → Prop} {post' : β → State → Prop} {a : Eval α}
    {b : ℕ → Eval α} {f : α → Eval β} {g : ℕ → α → Eval β} (ha : C.At s t post a b)
    (hf : ∀ x s' t', post x s' → C.rel s' t' → s.Advance C.becomes s' →
      C.At s' t' post' (f x) fun i => g i x) :
    C.At s t post' (a >>= f) fun i => b i >>= g i := by
  intro r s'' hr he
  rcases hs : a.outcome s with ⟨x | x, s'⟩
  · rw [Eval.outcome_bind_error hs] at hr
    obtain ⟨rfl, rfl⟩ := Prod.mk.inj hr
    obtain ⟨t', hb, hrel, hadv, hbal, -⟩ := ha _ _ hs fun e h => he e (by cases h; rfl)
    refine ⟨t', hb.mono fun i hi => ?_, hrel, hadv, hbal, fun y hy => by cases hy⟩
    exact Eval.outcome_bind_error hi _
  · rw [Eval.outcome_bind_ok hs] at hr
    obtain ⟨t', hb, hrel, hadv, hbal, hpost⟩ := ha _ _ hs fun e h => by cases h
    obtain ⟨t'', hg, hrel', hadv', hbal', hpost'⟩ := hf x s' t' (hpost x rfl) hrel hadv r s'' hr he
    refine ⟨t'', ?_, hrel', hadv.trans C.closed hadv', hbal.trans hbal', hpost'⟩
    filter_upwards [hb, hg] with i hi hi'
    rw [Eval.outcome_bind_ok hi, hi']

protected theorem At.get_bind {post : α → State → Prop} {f : State → Eval α}
    {g : ℕ → State → Eval α} (h : C.At s t post (f s) fun i => g i t) :
    C.At s t post (get >>= f) fun i => get >>= g i := h

protected theorem At.of_not_strict {post : α → State → Prop} {e : Stop} (h : ¬ C.strict e)
    (b : ℕ → Eval α) : C.At s t post (throw e) b := by
  intro r s' ha he
  have hr : Except.error e = r := (Prod.mk.inj ha).1
  exact absurd (he e hr.symm) h

protected theorem Sim.pure {post : α → State → Prop} {x : α} (hx : ∀ s, post x s) :
    C.Sim post (pure x) fun _ => pure x := fun s _ h => .pure h (hx s)

protected theorem Sim.throw {post : α → State → Prop} (e : Stop) :
    C.Sim post (throw e) fun _ => throw e := fun _ _ h => .throw h e

protected theorem Sim.fail {post : α → State → Prop} (e : Error) :
    C.Sim post (Eval.fail e) fun _ => Eval.fail e := .throw (.error e)

protected theorem Sim.mono {post post' : α → State → Prop} {a : Eval α} {b : ℕ → Eval α}
    (h : C.Sim post a b) (hpost : ∀ x s, post x s → post' x s) : C.Sim post' a b :=
  fun s t hrel => (h s t hrel).mono hpost

protected theorem Sim.bind {post : α → State → Prop} {post' : β → State → Prop} {a : Eval α}
    {b : ℕ → Eval α} {f : α → Eval β} {g : ℕ → α → Eval β} (ha : C.Sim post a b)
    (hf : ∀ x s t, post x s → C.rel s t → C.At s t post' (f x) fun i => g i x) :
    C.Sim post' (a >>= f) fun i => b i >>= g i :=
  fun s t h => (ha s t h).bind fun x s' t' hx h' _ => hf x s' t' hx h'

protected theorem Sim.map {post : α → State → Prop} {post' : β → State → Prop} {a : Eval α}
    {b : ℕ → Eval α} {f : α → β} (ha : C.Sim post a b)
    (hf : ∀ x s, post x s → post' (f x) s) :
    C.Sim post' (a >>= fun x => pure (f x)) fun i => b i >>= fun x => pure (f x) :=
  ha.bind fun x s _ hx h => .pure h (hf x s hx)

protected theorem Scoped.of_rel
    (enter : ∀ s t scope, C.rel s t → (Value.map scope).Every C.results →
      C.rel { s with scopes := scope :: s.scopes } { t with scopes := scope :: t.scopes })
    (leave : ∀ s t s' t', C.rel s t → C.rel s' t' →
      C.rel { s' with scopes := s.scopes } { t' with scopes := t.scopes }) : C.Scoped := by
  intro α post a b scope hscope hab s t hst r s'' hr he
  rw [Eval.outcome_withScope] at hr
  rcases ha : a.outcome { s with scopes := scope :: s.scopes } with ⟨r', s'⟩
  rw [ha] at hr
  obtain ⟨rfl, rfl⟩ := Prod.mk.inj hr
  obtain ⟨t', hb, hrel, hadv, hbal, hpost⟩ := hab _ _ (enter s t scope hst hscope) _ _ ha he
  have hs : s'.scopes.tail = s.scopes := by rw [hadv.scopes, List.tail_cons]
  have ht : t'.scopes.tail = t.scopes := by rw [hbal.scopes, List.tail_cons]
  refine ⟨{ t' with scopes := t'.scopes.tail }, hb.mono fun i hi => ?_, ?_, ?_, ?_, hpost⟩
  · rw [Eval.outcome_withScope, hi]
  · rw [hs, ht]
    exact leave s t s' t' hst hrel
  · exact ⟨⟨hs, hadv.resolving⟩, hadv.document⟩
  · exact ⟨ht, hbal.resolving⟩

end Coupling
end HclEval
