import HclEval.Proofs.Coupling.Basic
import HclEval.Proofs.Staging
import HclEval.Reduction.Reference

/-!
Locations of the document side by side. Both evaluations force and settle the same locations, and
what they store there is what the trees found there become. Once a location has been settled all
below it are results, and they remain results however the document is filled in further.
-/
namespace HclEval

open Filter Reduction

namespace Reduction

variable {p : Node → Prop}

theorem outcome_slot? {path : Path} {s : State} {v? : Option Value}
    (h : s.document.slot? path = v?) : (slot? path).outcome s = (.ok v?, s) := by
  rw [← h]
  rfl

theorem outcome_forceSlot {reduce : Node → Eval Value} {path : Path} {tree : Node} {s : State}
    (hslot : s.document.slot? path = some (.node tree)) :
    (forceSlot reduce path).outcome s =
      match (reduce tree).outcome s with
      | (.ok v, s') => (.ok (), { s' with document := s'.document.put path v })
      | (.error e, s') => (.error e, s') := by
  unfold forceSlot
  rw [Eval.outcome_bind_ok (outcome_slot? hslot), Eval.outcome_bind]
  rcases (reduce tree).outcome s with ⟨_ | _, _⟩ <;> rfl

theorem outcome_reduceItems {reduce : Node → Eval Value} {items : List Value} {s : State}
    (h : ∀ v ∈ items, (reduceValue reduce v).outcome s = (.ok v, s)) :
    (reduceItems reduce items).outcome s = (.ok items, s) := by
  induction items with
  | nil => rfl
  | cons v rest ih =>
    simp only [List.forall_mem_cons] at h
    rw [reduceItems, Eval.outcome_bind_ok h.1, Eval.outcome_bind_ok (ih h.2)]
    rfl

theorem outcome_reduceEntries {reduce : Node → Eval Value} {entries : List (String × Value)}
    {s : State} (h : ∀ e ∈ entries, (reduceValue reduce e.2).outcome s = (.ok e.2, s)) :
    (reduceEntries reduce entries).outcome s = (.ok entries, s) := by
  induction entries with
  | nil => rfl
  | cons e rest ih =>
    simp only [List.forall_mem_cons] at h
    rw [reduceEntries, Eval.outcome_bind_ok h.1, Eval.outcome_bind_ok (ih h.2)]
    rfl

theorem outcome_reduceValue_of_free (reduce : Node → Eval Value) {v : Value}
    (hv : v.Every fun _ => False) (s : State) : (reduceValue reduce v).outcome s = (.ok v, s) := by
  induction v using Value.induction with
  | list items ih =>
    rw [Value.every_list] at hv
    have hitems := outcome_reduceItems fun v hmem => ih v hmem (hv v hmem)
    rw [reduceValue, Eval.outcome_bind_ok hitems]
    rfl
  | map entries ih =>
    rw [Value.every_map] at hv
    have hentries := outcome_reduceEntries fun e hmem => ih e hmem (hv e hmem)
    rw [reduceValue, Eval.outcome_bind_ok hentries]
    rfl
  | node tree => exact absurd ((Value.every_node _).1 hv) id
  | _ => rfl

theorem child?_of_mem_childSteps {v : Value} {step : Step} (h : step ∈ childSteps v) :
    ∃ c, v.child? step = some c := by
  cases v <;> simp only [childSteps, List.not_mem_nil] at h
  case list items =>
    obtain ⟨i, hi, rfl⟩ := List.mem_map.1 h
    exact ⟨_, List.getElem?_eq_getElem (List.mem_range.1 hi)⟩
  case map entries =>
    obtain ⟨e, he, rfl⟩ := List.mem_map.1 h
    exact Table.exists_get?_of_mem he

theorem every_of_children {m : Value.Becoming} {trees results : Node → Prop} {v w : Value}
    (hv : ∀ tree, v ≠ .node tree) (hvw : v.Fills m w) (hw : w.Staged trees results)
    (hchildren : ∀ step ∈ childSteps v, ∃ u, w.child? step = some u ∧ u.Every results) :
    w.Every results := by
  cases v
  case list items =>
    obtain ⟨items', rfl, hitems⟩ := (Value.fills_list ..).1 hvw
    rw [Value.every_list]
    intro u hu
    obtain ⟨i, hi, rfl⟩ := List.mem_iff_getElem.1 hu
    have hstep : Step.index i ∈ childSteps (.list items) :=
      List.mem_map.2 ⟨i, List.mem_range.2 (hitems.length_eq ▸ hi), rfl⟩
    obtain ⟨u, hchild, hevery⟩ := hchildren _ hstep
    rw [Value.child?, List.getElem?_eq_getElem hi] at hchild
    cases hchild
    exact hevery
  case map entries =>
    obtain ⟨entries', rfl, hentries⟩ := (Value.fills_map ..).1 hvw
    refine Value.every_of_staged hw fun key u hu => ?_
    have hkey : key ∈ Table.keys entries := by
      rw [← Value.keys_of_fills hentries]
      exact List.mem_map_of_mem (f := Prod.fst) (Table.mem_of_get? hu)
    obtain ⟨e, he, rfl⟩ := List.mem_map.1 hkey
    obtain ⟨u', hchild, hevery⟩ := hchildren (.key e.1) (List.mem_map.2 ⟨e, he, rfl⟩)
    rw [Value.child?, hu] at hchild
    cases hchild
    exact hevery
  case node tree => exact absurd rfl (hv tree)
  all_goals simp_all

theorem every_locals_of_slot {document : Document}
    (h : ∀ v, Table.get? document "locals" = some v → v.Every p) :
    (Value.map document.locals).Every p := by
  unfold Document.locals
  split
  · rename_i entries hlocals
    exact h _ hlocals
  · rename_i blocks hlocals
    have hblocks : (Value.list blocks).Every p := h _ hlocals
    refine List.foldlRecOn (motive := fun table => (Value.map table).Every p) _ _ (by simp) ?_
    intro table ht entries hentries
    obtain ⟨block, hmem, hblock⟩ := List.mem_filterMap.1 hentries
    have hevery := (Value.every_list _).1 hblocks block hmem
    cases block <;> simp only [Value.map?, reduceCtorEq, Option.some.injEq] at hblock
    subst hblock
    exact Value.every_merge ht hevery
  · simp

theorem every_locals {document : Document} (h : (Value.map document).Every p) :
    (Value.map document.locals).Every p :=
  every_locals_of_slot fun _ hv => (Value.every_map _).1 h _ (Table.mem_of_get? hv)

end Reduction

namespace State

variable {m : Value.Becoming} {s s' : State} {path : Path} {tree : Node}

theorem Advance.slot?_put (h : s.Advance m s') (hslot : s.document.slot? path = some (.node tree))
    (v : Value) : (s'.document.put path v).slot? path = some v := by
  obtain ⟨w, hw, -⟩ := h.document.at? hslot
  rw [Document.slot?_put _ (Document.ne_nil_of_slot?_node hslot), Document.slot?, hw,
    Option.map_some]

theorem Advance.put (h : s.Advance m s') (hslot : s.document.slot? path = some (.node tree))
    {v : Value} (hv : m tree v) :
    s.Advance m { s' with document := s'.document.put path v } := by
  refine ⟨⟨h.scopes, h.resolving⟩, ?_⟩
  rw [Document.map_put _ (Document.ne_nil_of_slot?_node hslot)]
  exact h.document.put hslot hv

end State

namespace Coupling

variable {C : Coupling} {α : Type} {s t : State}

structure Located (C : Coupling) : Prop where
  document_eq : ∀ {s t}, C.rel s t → t.document = s.document
  document : ∀ {s t}, C.rel s t → (Value.map s.document).Staged C.trees C.results
  put : ∀ {s t s' t' path tree v}, C.rel s t → s.document.slot? path = some (.node tree) →
    C.rel s' t' → s.Advance C.becomes s' → C.becomes tree v →
    C.rel { s' with document := s'.document.put path v }
      { t' with document := t'.document.put path v }

/-- Segments that do not select among the locals by position, unless all of the locals may be
evaluated wherever they are read. -/
def ByName (C : Coupling) (segments : List Node) : Prop :=
  (∀ first ∈ segments.head?, ∃ name, first = .segment name) ∨
    ∀ s t, C.rel s t → (Value.map s.document.locals).Every C.trees

/-- Evaluations in which every tree of the document can be forced at its location. The document may
store other trees than those that are evaluated anywhere else. -/
structure Settling (C : Coupling) (stored : Node → Prop) (reduce : Node → Eval Value)
    (other : ℕ → Node → Eval Value) : Prop where
  document_eq : ∀ {s t}, C.rel s t → t.document = s.document
  document : ∀ {s t}, C.rel s t → (Value.map s.document).Staged stored C.results
  force : ∀ {s t path tree}, C.rel s t → s.document.slot? path = some (.node tree) →
    C.At s t (fun _ s' => ∃ v, s'.document.slot? path = some v ∧ v.Every C.results)
      (forceSlot reduce path) fun i => forceSlot (other i) path
  byName : ∀ {rest}, C.trees (.reference (.segment "local" :: rest)) → C.ByName rest

def Persistent (C : Coupling) (reached : State → Prop) : Prop :=
  ∀ s s', s.Advance C.becomes s' → reached s → reached s'

protected theorem At.forM {β : Type} {xs : List β} {ready done : β → State → Prop}
    {f : β → Eval Unit} {g : ℕ → β → Eval Unit} (hready : ∀ x, C.Persistent (ready x))
    (hdone : ∀ x, C.Persistent (done x))
    (h : ∀ x ∈ xs, ∀ s t, C.rel s t → ready x s →
      C.At s t (fun _ s' => done x s') (f x) fun i => g i x)
    (hst : C.rel s t) (hxs : ∀ x ∈ xs, ready x s) :
    C.At s t (fun _ s' => ∀ x ∈ xs, done x s') (xs.forM f) fun i => xs.forM (g i) := by
  induction xs generalizing s t with
  | nil =>
    exact .pure hst (by simp)
  | cons x rest ih =>
    simp only [List.forall_mem_cons] at h hxs
    refine (h.1 s t hst hxs.1).bind fun _ s' t' hx hst' hadv => ?_
    have htail := ih h.2 hst' fun y hy => hready y s s' hadv (hxs.2 y hy)
    refine htail.reached.mono fun _ s'' hrest => ?_
    exact List.forall_mem_cons.2 ⟨hdone x s' s'' hrest.2.1 hx, hrest.1⟩

theorem persistent_slot (path : Path) :
    C.Persistent fun s => ∃ v, s.document.slot? path = some v ∧ v.Every C.results := by
  rintro s s' h ⟨v, hv, hevery⟩
  obtain ⟨w, hw, hfills⟩ := h.document.at? hv
  exact ⟨w, hw, hfills.every C.every_of_becomes hevery⟩

theorem persistent_exists (path : Path) :
    C.Persistent fun s => ∃ v, s.document.slot? path = some v := by
  rintro s s' h ⟨v, hv⟩
  obtain ⟨w, hw, -⟩ := h.document.at? hv
  exact ⟨w, hw⟩

protected theorem At.bind_modify {post : α → State → Prop} {post' : Unit → State → Prop}
    {a : Eval α} {b : ℕ → Eval α} {f g : α → State → State} (ha : C.At s t post a b)
    (hf : ∀ x s' t', post x s' → C.rel s' t' → s.Advance C.becomes s' →
      C.rel (f x s') (g x t') ∧ s.Advance C.becomes (f x s') ∧ t'.Balanced (g x t') ∧
        post' () (f x s')) :
    C.At s t post' (a >>= fun x => modify (f x)) fun i => b i >>= fun x => modify (g x) := by
  intro r s'' hr he
  rcases hs : a.outcome s with ⟨x | x, s'⟩
  · rw [Eval.outcome_bind_error hs] at hr
    obtain ⟨rfl, rfl⟩ := Prod.mk.inj hr
    obtain ⟨t', hb, hrel, hadv, hbal, -⟩ := ha _ _ hs fun e h => he e (by cases h; rfl)
    refine ⟨t', hb.mono fun i hi => ?_, hrel, hadv, hbal, fun y hy => by cases hy⟩
    exact Eval.outcome_bind_error hi _
  · rw [Eval.outcome_bind_ok hs, Eval.outcome_modify] at hr
    obtain ⟨rfl, rfl⟩ := Prod.mk.inj hr
    obtain ⟨t', hb, hrel, hadv, hbal, hpost⟩ := ha _ _ hs fun e h => by cases h
    obtain ⟨hrel', hadv', hbal', hpost'⟩ := hf x s' t' (hpost x rfl) hrel hadv
    refine ⟨g x t', hb.mono fun i hi => ?_, hrel', hadv', hbal.trans hbal', fun _ _ => hpost'⟩
    rw [Eval.outcome_bind_ok hi, Eval.outcome_modify]

section
variable {reduce : Node → Eval Value} {other : ℕ → Node → Eval Value}

protected theorem Sim.reduceItems {items : List Value}
    (hi : ∀ v ∈ items, C.Sim C.Result (reduceValue reduce v) fun i => reduceValue (other i) v) :
    C.Sim (fun vs _ => ∀ v ∈ vs, v.Every C.results) (reduceItems reduce items)
      fun i => reduceItems (other i) items := by
  induction items with
  | nil => exact .pure (by simp)
  | cons v rest ih =>
    simp only [List.forall_mem_cons] at hi
    refine hi.1.bind fun w s t hw hst => ?_
    refine ((ih hi.2).map fun vs _ hvs => ?_) s t hst
    exact List.forall_mem_cons.2 ⟨hw, hvs⟩

protected theorem Sim.reduceEntries {entries : List (String × Value)}
    (he : ∀ e ∈ entries,
      C.Sim C.Result (reduceValue reduce e.2) fun i => reduceValue (other i) e.2) :
    C.Sim (fun es _ => ∀ e ∈ es, e.2.Every C.results) (reduceEntries reduce entries)
      fun i => reduceEntries (other i) entries := by
  induction entries with
  | nil => exact .pure (by simp)
  | cons e rest ih =>
    simp only [List.forall_mem_cons] at he
    refine he.1.bind fun w s t hw hst => ?_
    refine ((ih he.2).map fun es _ hes => ?_) s t hst
    exact List.forall_mem_cons.2 ⟨hw, hes⟩

protected theorem At.slot?_bind {β : Type} {path : Path} {post : β → State → Prop}
    {f : Option Value → Eval β} {g : ℕ → Option Value → Eval β} (heq : t.document = s.document)
    (hf : C.At s t post (f (s.document.slot? path)) fun i => g i (s.document.slot? path)) :
    C.At s t post (slot? path >>= f) fun i => slot? path >>= g i := by
  intro r s' ha he
  obtain ⟨t', hb, rest⟩ := hf r s' ha he
  refine ⟨t', hb.mono fun i hi => ?_, rest⟩
  rw [← heq] at hi
  exact hi

protected theorem At.forceSlot_of_put {path : Path} {tree : Node} (heq : t.document = s.document)
    (hslot : s.document.slot? path = some (.node tree))
    (htree : C.At s t (fun v _ => C.becomes tree v) (reduce tree) fun i => other i tree)
    (hput : ∀ {s' t' v}, C.rel s' t' → s.Advance C.becomes s' → C.becomes tree v →
      C.rel { s' with document := s'.document.put path v }
        { t' with document := t'.document.put path v }) :
    C.At s t (fun _ s' => ∃ v, s'.document.slot? path = some v ∧ v.Every C.results)
      (forceSlot reduce path) fun i => forceSlot (other i) path := by
  unfold forceSlot
  refine .slot?_bind heq ?_
  rw [hslot]
  refine htree.bind_modify fun v s' t' hv hst' hadv => ?_
  exact ⟨hput hst' hadv hv, hadv.put hslot hv, ⟨rfl, rfl⟩, v, hadv.slot?_put hslot v,
    C.every_of_becomes tree v hv⟩

section
variable {stored : Node → Prop} (S : C.Settling stored reduce other)
include S

theorem Settling.forceSlot (path : Path) :
    C.Sim (fun _ _ => True) (forceSlot reduce path) fun i => forceSlot (other i) path := by
  intro s t hst
  by_cases hslot : ∃ tree, s.document.slot? path = some (.node tree)
  · obtain ⟨tree, hslot⟩ := hslot
    exact (S.force hst hslot).mono fun _ _ _ => trivial
  · unfold Reduction.forceSlot
    refine .slot?_bind (S.document_eq hst) ?_
    split
    · exact absurd ⟨_, ‹_›⟩ hslot
    · exact .pure hst trivial

theorem Settling.settleChildren {path : Path} {v : Value} {f : Path → Eval Unit}
    {g : ℕ → Path → Eval Unit}
    (hf : ∀ {s t path v}, C.rel s t → s.document.slot? path = some v →
      C.At s t (fun _ s' => ∃ v, s'.document.slot? path = some v ∧ v.Every C.results) (f path)
        fun i => g i path)
    (hst : C.rel s t) (hslot : s.document.slot? path = some v) (hv : ∀ tree, v ≠ .node tree) :
    C.At s t (fun _ s' => ∃ v, s'.document.slot? path = some v ∧ v.Every C.results)
      ((childSteps v).forM fun step => f (path ++ [step]))
      fun i => (childSteps v).forM fun step => g i (path ++ [step]) := by
  have hsteps := At.forM (fun step => persistent_exists (path ++ [step]))
    (fun step => persistent_slot (path ++ [step]))
    (fun step _ s t hst hex => hf hst hex.choose_spec) hst fun step hmem => by
      rw [Document.slot?_append, hslot]
      exact child?_of_mem_childSteps hmem
  refine hsteps.reached.mono fun _ s' ⟨hdone, hadv, t', hst'⟩ => ?_
  obtain ⟨w, hw, hvw⟩ := hadv.document.at? hslot
  refine ⟨w, hw, every_of_children hv hvw ((S.document hst').at? hw) fun step hmem => ?_⟩
  obtain ⟨u, hu, hevery⟩ := hdone step hmem
  rw [Document.slot?_append, Document.slot?, hw] at hu
  exact ⟨u, hu, hevery⟩

theorem Settling.settleAt {depth : ℕ} {depth' : ℕ → ℕ} (hd : C.Deep depth depth') {path : Path}
    {v : Value} (hst : C.rel s t) (hslot : s.document.slot? path = some v) :
    C.At s t (fun _ s' => ∃ v, s'.document.slot? path = some v ∧ v.Every C.results)
      (settle reduce depth path) fun i => settle (other i) (depth' i) path := by
  induction depth generalizing depth' s t path v with
  | zero => exact .exhausted hst hd fun i hi => by rw [hi]; rfl
  | succ depth ih =>
    have hbody : C.At s t (fun _ s' => ∃ v, s'.document.slot? path = some v ∧ v.Every C.results)
        (settle reduce (depth + 1) path)
        fun i => settle (other i) (depth' i - 1 + 1) path := by
      simp only [Reduction.settle]
      refine .slot?_bind (S.document_eq hst) ?_
      rw [hslot]
      cases v with
      | node tree => exact S.force hst hslot
      | _ =>
        exact S.settleChildren (fun hst hslot => ih hd.pred.1 hst hslot) hst hslot (by simp)
    exact hbody.congr (hd.pred.2.mono fun i hi => by rw [← hi])

theorem Settling.settle {depth : ℕ} {depth' : ℕ → ℕ} (hd : C.Deep depth depth') (path : Path) :
    C.Sim (fun _ s => ∀ v, s.document.slot? path = some v → v.Every C.results)
      (settle reduce depth path) fun i => settle (other i) (depth' i) path := by
  intro s t hst
  cases hslot : s.document.slot? path with
  | some v =>
    refine (S.settleAt hd hst hslot).mono fun _ s' ⟨w, hw, hevery⟩ u hu => ?_
    rw [hw] at hu
    cases hu
    exact hevery
  | none =>
    cases depth with
    | zero => exact .exhausted hst hd fun i hi => by rw [hi]; rfl
    | succ depth =>
      have hbody : C.At s t (fun _ s => ∀ v, s.document.slot? path = some v → v.Every C.results)
          (Reduction.settle reduce (depth + 1) path)
          fun i => Reduction.settle (other i) (depth' i - 1 + 1) path := by
        simp only [Reduction.settle]
        refine .slot?_bind (S.document_eq hst) ?_
        rw [hslot]
        exact .pure hst (by simp [hslot])
      exact hbody.congr (hd.pred.2.mono fun i hi => by rw [← hi])

end

variable (h : ∀ tree, C.trees tree →
  C.Sim (fun v _ => C.becomes tree v) (reduce tree) fun i => other i tree)
include h

protected theorem Sim.reduceValue {v : Value} (hv : v.Every C.trees) :
    C.Sim C.Result (reduceValue reduce v) fun i => reduceValue (other i) v := by
  induction v using Value.induction with
  | list items ih =>
    rw [Value.every_list] at hv
    refine (Sim.reduceItems fun v hmem => ih v hmem (hv v hmem)).map fun vs _ hvs => ?_
    exact (Value.every_list _).2 hvs
  | map entries ih =>
    rw [Value.every_map] at hv
    refine (Sim.reduceEntries fun e hmem => ih e hmem (hv e hmem)).map fun es _ hes => ?_
    exact (Value.every_map _).2 hes
  | node tree =>
    exact (h tree ((Value.every_node _).1 hv)).mono fun v _ => C.every_of_becomes tree v
  | _ => exact .pure (by simp)

section
variable (A : C.Located)
include A

protected theorem At.forceSlot {path : Path} {tree : Node} (hst : C.rel s t)
    (hslot : s.document.slot? path = some (.node tree)) :
    C.At s t (fun _ s' => ∃ v, s'.document.slot? path = some v ∧ v.Every C.results)
      (forceSlot reduce path) fun i => forceSlot (other i) path := by
  have htree : C.trees tree := (Value.staged_node _).1 ((A.document hst).at? hslot)
  exact .forceSlot_of_put (A.document_eq hst) hslot (h tree htree s t hst)
    fun hst' hadv hv => A.put hst hslot hst' hadv hv

theorem Located.settling : C.Settling C.trees reduce other where
  document_eq := A.document_eq
  document := A.document
  force := At.forceSlot h A
  byName _ := .inr fun _ _ hst => every_locals (A.document hst).every

end

protected theorem Sim.forceSlot (A : C.Located) (path : Path) :
    C.Sim (fun _ _ => True) (forceSlot reduce path) fun i => forceSlot (other i) path :=
  (A.settling h).forceSlot path

protected theorem At.settle (A : C.Located) {depth : ℕ} {depth' : ℕ → ℕ} (hd : C.Deep depth depth')
    {path : Path} {v : Value} (hst : C.rel s t) (hslot : s.document.slot? path = some v) :
    C.At s t (fun _ s' => ∃ v, s'.document.slot? path = some v ∧ v.Every C.results)
      (settle reduce depth path) fun i => settle (other i) (depth' i) path :=
  (A.settling h).settleAt hd hst hslot

protected theorem Sim.settle (A : C.Located) {depth : ℕ} {depth' : ℕ → ℕ}
    (hd : C.Deep depth depth') (path : Path) :
    C.Sim (fun _ s => ∀ v, s.document.slot? path = some v → v.Every C.results)
      (settle reduce depth path) fun i => settle (other i) (depth' i) path :=
  (A.settling h).settle hd path

end

end Coupling
end HclEval
