import HclEval.Proofs.Meaning.Basic
import HclEval.Proofs.Meaning.Shape

/-!
Evaluation follows meaning: whatever part of the document has been evaluated, an evaluation that
succeeds comes to what its tree means in the document that the first pass built, and what it stores
on the way is what the trees there mean. References go side by side through the document as it is
and through copies of it as it was.
-/
namespace HclEval

open Filter Reduction

structure State.Filled (setting : Setting) (document : Document) (s : State) : Prop where
  fills : (Value.map document).Fills (becoming setting document) (.map s.document)
  staged : (Value.map s.document).Staged Node.Plain (Unmet setting document)
  scopes : s.scopes = []

variable {setting : Setting} {document : Document}

namespace Coupling

def understood (setting : Setting) (document : Document) : Coupling where
  rel s t := t = {} ∧ s.Filled setting document
  strict _ := False
  trees := Node.Plain
  results := Unmet setting document
  becomes := becoming setting document
  hereditary := Node.hereditary_plain
  trees_of_results := fun _ h => h.plain
  every_of_becomes := fun _ _ h => h.2
  closed := closed_becoming

def inPlace (setting : Setting) (document : Document) : Coupling :=
  { understood setting document with rel := fun s t => s = t ∧ s.Filled setting document }

theorem filled_put {s s' : State} {path : Path} {tree : Node} {v : Value}
    (hs : s.Filled setting document) (hslot : s.document.slot? path = some (.node tree))
    (hs' : s'.Filled setting document) (hadv : s.Advance (becoming setting document) s')
    (hv : becoming setting document tree v) :
    State.Filled setting document { s' with document := s'.document.put path v } := by
  have hpath := Document.ne_nil_of_slot?_node hslot
  have hmap := Document.map_put s'.document hpath v
  refine ⟨?_, ?_, hs'.scopes⟩
  · rw [hmap]
    exact hs.fills.trans closed_becoming (hadv.document.put hslot hv)
  · rw [hmap]
    exact hs'.staged.put (hv.2.staged fun _ h => h.plain)

theorem located_inPlace : (inPlace setting document).Located where
  document_eq h := by rw [h.1]
  document h := h.2.staged
  put := by
    rintro s _ s' _ path tree v ⟨rfl, hs⟩ hslot ⟨rfl, hs'⟩ hadv hv
    exact ⟨rfl, filled_put hs hslot hs' hadv hv⟩

theorem sim_inPlace {α : Type} {post : α → State → Prop} {a : Eval α} {b : ℕ → Eval α}
    (h : (understood setting document).Sim post a b) :
    (inPlace setting document).Sim post a fun _ => a := by
  rintro s _ ⟨rfl, hs⟩ r s' ha he
  obtain ⟨t', -, ⟨rfl, hs'⟩, hadv, -, hpost⟩ := h s {} ⟨rfl, hs⟩ r s' ha he
  exact ⟨s', .of_forall fun _ => ha, ⟨rfl, hs'⟩, hadv, hadv.toBalanced, hpost⟩

end Coupling

/-- From a state an evaluation that succeeds is followed by others from the empty state, which
come to a result that goes with its own. -/
def Follows (setting : Setting) (document : Document) {α β : Type} (s : State)
    (post : α → β → State → Prop) (a : Eval α) (b : ℕ → Eval β) : Prop :=
  ∀ x s', a.outcome s = (.ok x, s') →
    s'.Filled setting document ∧ s.Advance (becoming setting document) s' ∧
      ∃ y, (∀ᶠ i in atTop, (b i).outcome {} = (.ok y, {})) ∧ post x y s'

namespace Follows

variable {α β γ δ : Type} {s : State} {post : α → β → State → Prop}

theorem pure {x : α} {y : β} (hs : s.Filled setting document) (h : post x y s) :
    Follows setting document s post (pure x) fun _ => pure y := by
  intro x' s' ha
  obtain ⟨hx, rfl⟩ := Prod.mk.inj ha
  cases hx
  exact ⟨hs, .refl _, y, .of_forall fun _ => rfl, h⟩

theorem bind {post' : γ → δ → State → Prop} {a : Eval α} {b : ℕ → Eval β} {f : α → Eval γ}
    {g : ℕ → β → Eval δ} (ha : Follows setting document s post a b)
    (hf : ∀ x y s', post x y s' → s'.Filled setting document →
      s.Advance (becoming setting document) s' →
        Follows setting document s' post' (f x) fun i => g i y) :
    Follows setting document s post' (a >>= f) fun i => b i >>= g i := by
  intro z s'' hz
  rcases hx : a.outcome s with ⟨x | x, s'⟩
  · rw [Eval.outcome_bind_error hx] at hz
    cases (Prod.mk.inj hz).1
  · rw [Eval.outcome_bind_ok hx] at hz
    obtain ⟨hs', hadv, y, hb, hy⟩ := ha x s' hx
    obtain ⟨hs'', hadv', w, hg, hw⟩ := hf x y s' hy hs' hadv z s'' hz
    refine ⟨hs'', hadv.trans closed_becoming hadv', w, ?_, hw⟩
    filter_upwards [hb, hg] with i hi hi'
    rw [Eval.outcome_bind_ok hi, hi']

theorem map {post' : γ → δ → State → Prop} {a : Eval α} {b : ℕ → Eval β} {f : α → γ} {g : β → δ}
    (h : Follows setting document s post a b)
    (hpost : ∀ x y s', post x y s' → post' (f x) (g y) s') :
    Follows setting document s post' (a >>= fun x => Pure.pure (f x))
      fun i => b i >>= fun y => Pure.pure (g y) :=
  h.bind fun x y s' hxy hs' _ => .pure hs' (hpost x y s' hxy)

theorem silent {post : α → State → Prop} {post' : γ → δ → State → Prop} {a : Eval α}
    {f : α → Eval γ} {b : ℕ → Eval δ}
    (ha : (Coupling.inPlace setting document).At s s post a fun _ => a)
    (hf : ∀ x s', post x s' → s'.Filled setting document →
      s.Advance (becoming setting document) s' →
        Follows setting document s' post' (f x) b) :
    Follows setting document s post' (a >>= f) b := by
  intro z s'' hz
  rcases hx : a.outcome s with ⟨x | x, s'⟩
  · rw [Eval.outcome_bind_error hx] at hz
    cases (Prod.mk.inj hz).1
  · rw [Eval.outcome_bind_ok hx] at hz
    obtain ⟨_, -, ⟨-, hs'⟩, hadv, -, hpost⟩ := ha _ _ hx fun e he => by cases he
    obtain ⟨hs'', hadv', rest⟩ := hf x s' (hpost x rfl) hs' hadv z s'' hz
    exact ⟨hs'', hadv.trans closed_becoming hadv', rest⟩

theorem of_sim {post : α → State → Prop} {a : Eval α} {b : ℕ → Eval α}
    (hs : s.Filled setting document) (h : (Coupling.understood setting document).Sim post a b) :
    Follows setting document s (fun x y s' => x = y ∧ post x s') a b := by
  intro x s' ha
  obtain ⟨t', hb, ⟨rfl, hs'⟩, hadv, -, hpost⟩ := h s {} ⟨rfl, hs⟩ _ _ ha fun e he => by cases he
  exact ⟨hs', hadv, x, hb, rfl, hpost x rfl⟩

theorem sim {post : α → State → Prop} {a : Eval α} {b : ℕ → Eval α}
    (h : ∀ s, s.Filled setting document →
      Follows setting document s (fun x y s' => x = y ∧ post x s') a b) :
    (Coupling.understood setting document).Sim post a b := by
  rintro s _ ⟨rfl, hs⟩ r s' ha he
  cases r with
  | error e => exact (he e rfl).elim
  | ok x =>
    obtain ⟨hs', hadv, y, hb, rfl, hpost⟩ := h s hs x s' ha
    exact ⟨{}, hb, ⟨rfl, hs'⟩, hadv, .refl _, fun _ hx => by cases hx; exact hpost⟩

theorem withReference {post : α → β → Prop} {path : String} {a : Eval α} {b : ℕ → Eval β}
    (h : Follows setting document { s with resolving := path :: s.resolving }
      (fun x y _ => post x y) a b) :
    Follows setting document s (fun x y _ => post x y) (Eval.withReference path a) b := by
  intro x s'' hx
  rw [Eval.outcome_withReference] at hx
  rcases ha : a.outcome { s with resolving := path :: s.resolving } with ⟨r, s'⟩
  rw [ha] at hx
  obtain ⟨rfl, rfl⟩ := Prod.mk.inj hx
  obtain ⟨hs', hadv, y, hb, hy⟩ := h x s' ha
  have hresolving : s'.resolving.tail = s.resolving := by rw [hadv.resolving, List.tail_cons]
  exact ⟨⟨hs'.fills, hs'.staged, hs'.scopes⟩, ⟨⟨hadv.scopes, hresolving⟩, hadv.document⟩, y, hb, hy⟩

end Follows

abbrev Understands (setting : Setting) (document : Document) (reduce : Node → Eval Value) : Prop :=
  ∀ tree, tree.Plain → (Coupling.understood setting document).Sim
    (fun v _ => becoming setting document tree v) (reduce tree)
      fun i => meaning setting document i tree

/-- What is left of a value and of its copy once their roots have been evaluated. -/
structure Forced (setting : Setting) (document : Document) (u w : Value) : Prop where
  fills : u.Fills (becoming setting document) w
  plain : w.Every Node.Plain
  root : (∀ tree, u ≠ .node tree) ∨ Settled setting document u

theorem Settled.plain {v : Value} (h : Settled setting document v) : v.Every Node.Plain :=
  h.mono fun _ h => h.plain

theorem Settled.forced {v : Value} (h : Settled setting document v) :
    Forced setting document v v := ⟨.refl v, h.plain, .inr h⟩

theorem exists_forced {u w w' : Value} (huw : u.Fills (becoming setting document) w)
    (hw : w.Every Node.Plain)
    (hw' : (∃ tree, w = .node tree ∧ becoming setting document tree w') ∨
      (∀ tree, w ≠ .node tree) ∧ w' = w) :
    ∃ u', (∀ᶠ i in atTop, (force (meaning setting document i) u).outcome {} = (.ok u', {})) ∧
      Forced setting document u' w' := by
  by_cases hu : ∃ tree, u = .node tree
  · obtain ⟨tree, rfl⟩ := hu
    rcases (Value.fills_node ..).1 huw with rfl | hmeans
    · rcases hw' with ⟨tree', htree, hbecomes⟩ | ⟨hnode, -⟩
      · cases htree
        exact ⟨w', hbecomes.1, hbecomes.2.forced⟩
      · exact absurd rfl (hnode tree)
    · have heq : w' = w := by
        rcases hw' with ⟨tree', rfl, hbecomes⟩ | ⟨-, heq⟩
        · exact hbecomes.1.unique ((Value.every_node _).1 hmeans.2).means
        · exact heq
      rw [heq]
      exact ⟨w, hmeans.1, hmeans.2.forced⟩
  · have hnode : ∀ tree, u ≠ .node tree := fun tree h => hu ⟨tree, h⟩
    have hforce (i : ℕ) : force (meaning setting document i) u = pure u := by
      unfold force
      split
      · exact absurd rfl (hnode _)
      · rfl
    have heq : w' = w := by
      rcases hw' with ⟨tree', rfl, -⟩ | ⟨-, heq⟩
      · exact absurd rfl (huw.ne_node hnode tree')
      · exact heq
    rw [heq]
    refine ⟨u, .of_forall fun i => ?_, huw, hw, .inl hnode⟩
    rw [hforce, Eval.outcome_pure]

theorem Forced.select? {u w : Value} (h : Forced setting document u w) (accessor : Accessor) :
    Option.Rel (fun c c' => c.Fills (becoming setting document) c' ∧ c'.Every Node.Plain)
      (u.select? accessor) (w.select? accessor) := by
  have hrel : Option.Rel (Value.Fills (becoming setting document)) (u.select? accessor)
      (w.select? accessor) := by
    rcases h.root with hnode | hsettled
    · exact h.fills.select? hnode accessor
    · rw [hsettled.eq_of_fills h.fills]
      cases u.select? accessor with
      | none => exact .none
      | some c => exact .some (.refl c)
  have hplain : ∀ c, w.select? accessor = some c → c.Every Node.Plain :=
    fun c hc => h.plain.select? hc
  generalize u.select? accessor = c? at hrel
  generalize w.select? accessor = c?' at hrel hplain
  cases hrel with
  | none => exact .none
  | some hcc => exact .some ⟨hcc, hplain _ rfl⟩

theorem Forced.stepTo?_eq {u w : Value} (h : Forced setting document u w) (accessor : Accessor) :
    w.stepTo? accessor = u.stepTo? accessor := by
  rcases h.root with hnode | hsettled
  · exact h.fills.stepTo?_eq hnode accessor
  · rw [hsettled.eq_of_fills h.fills]

section
variable {reduce : Node → Eval Value} (h : Understands setting document reduce)
include h

theorem follows_force {s : State} (hs : s.Filled setting document) {u w : Value}
    (huw : u.Fills (becoming setting document) w) (hw : w.Every Node.Plain) :
    Follows setting document s (fun w' u' _ => Forced setting document u' w') (force reduce w)
      fun i => force (meaning setting document i) u := by
  intro w' s' ha
  by_cases hnode : ∃ tree, w = .node tree
  · obtain ⟨tree, rfl⟩ := hnode
    obtain ⟨hs', hadv, y, -, -, hbecomes⟩ :=
      Follows.of_sim hs (h tree ((Value.every_node _).1 hw)) w' s' ha
    exact ⟨hs', hadv, exists_forced huw hw (.inl ⟨tree, rfl, hbecomes⟩)⟩
  · have hforce : force reduce w = pure w := by
      unfold force
      split
      · exact absurd ⟨_, rfl⟩ hnode
      · rfl
    rw [hforce] at ha
    obtain ⟨hw', rfl⟩ := Prod.mk.inj ha
    cases hw'
    exact ⟨hs, .refl _, exists_forced huw hw (.inr ⟨fun tree heq => hnode ⟨tree, heq⟩, rfl⟩)⟩

theorem follows_forceSlot {s : State} (hs : s.Filled setting document) {path : Path} {u w : Value}
    (hslot : s.document.slot? path = some w) (huw : u.Fills (becoming setting document) w) :
    Follows setting document s
      (fun _ u' s' => ∃ w', s'.document.slot? path = some w' ∧ Forced setting document u' w')
      (forceSlot reduce path) fun i => force (meaning setting document i) u := by
  have hw : w.Every Node.Plain := (hs.staged.at? hslot).every
  intro x s'' ha
  by_cases hnode : ∃ tree, w = .node tree
  · obtain ⟨tree, rfl⟩ := hnode
    rw [outcome_forceSlot hslot] at ha
    rcases hv : (reduce tree).outcome s with ⟨v | v, s'⟩
    · rw [hv] at ha
      cases (Prod.mk.inj ha).1
    · rw [hv] at ha
      obtain ⟨-, rfl⟩ := Prod.mk.inj ha
      obtain ⟨hs', hadv, y, -, -, hbecomes⟩ :=
        Follows.of_sim hs (h tree ((Value.every_node _).1 hw)) v s' hv
      have hpath := Document.ne_nil_of_slot?_node hslot
      obtain ⟨w', hw', -⟩ := hadv.document.at? hslot
      obtain ⟨u', hu', hforced⟩ := exists_forced huw hw (.inl ⟨tree, rfl, hbecomes⟩)
      refine ⟨Coupling.filled_put hs hslot hs' hadv hbecomes,
        ⟨⟨hadv.scopes, hadv.resolving⟩, ?_⟩, u', hu', v, ?_, hforced⟩
      · rw [Document.map_put _ hpath]
        exact hadv.document.put hslot hbecomes
      · rw [Document.slot?_put _ hpath, Document.slot?, hw', Option.map_some]
  · have hforce : (forceSlot reduce path).outcome s = (.ok (), s) := by
      unfold forceSlot
      rw [Eval.outcome_bind_ok (outcome_slot? hslot)]
      cases w with
      | node tree => exact absurd ⟨tree, rfl⟩ hnode
      | _ => rfl
    rw [hforce] at ha
    obtain ⟨-, rfl⟩ := Prod.mk.inj ha
    obtain ⟨u', hu', hforced⟩ :=
      exists_forced huw hw (.inr ⟨fun tree heq => hnode ⟨tree, heq⟩, rfl⟩)
    exact ⟨hs, .refl _, u', hu', w, hslot, hforced⟩

omit h in
theorem follows_reduceItems {items items' : List Value}
    (hitems : List.Forall₂ (fun u w => ∀ s, s.Filled setting document →
      Follows setting document s (fun v v' _ => v = v' ∧ Settled setting document v)
        (reduceValue reduce w) fun i => reduceValue (meaning setting document i) u) items items')
    {s : State} (hs : s.Filled setting document) :
    Follows setting document s (fun vs vs' _ => vs = vs' ∧ ∀ v ∈ vs, Settled setting document v)
      (reduceItems reduce items') fun i => reduceItems (meaning setting document i) items := by
  induction hitems generalizing s with
  | nil => exact .pure hs ⟨rfl, by simp⟩
  | cons head _ ih =>
    refine (head s hs).bind fun v v' s' hv hs' _ => (ih hs').map fun vs vs' s'' hvs => ?_
    rw [hv.1, hvs.1]
    refine ⟨rfl, List.forall_mem_cons.2 ⟨?_, ?_⟩⟩
    · rw [← hv.1]
      exact hv.2
    · rw [← hvs.1]
      exact hvs.2

omit h in
theorem follows_reduceEntries {entries entries' : List (String × Value)}
    (hentries : List.Forall₂ (fun e e' => e'.1 = e.1 ∧ ∀ s, s.Filled setting document →
      Follows setting document s (fun v v' _ => v = v' ∧ Settled setting document v)
        (reduceValue reduce e'.2) fun i => reduceValue (meaning setting document i) e.2)
      entries entries')
    {s : State} (hs : s.Filled setting document) :
    Follows setting document s (fun es es' _ => es = es' ∧ ∀ e ∈ es, Settled setting document e.2)
      (reduceEntries reduce entries')
      fun i => reduceEntries (meaning setting document i) entries := by
  induction hentries generalizing s with
  | nil => exact .pure hs ⟨rfl, by simp⟩
  | @cons e e' _ _ head _ ih =>
    refine (head.2 s hs).bind fun v v' s' hv hs' _ => (ih hs').map fun es es' s'' hes => ?_
    rw [hv.1, hes.1, head.1]
    refine ⟨rfl, List.forall_mem_cons.2 ⟨?_, ?_⟩⟩
    · rw [← hv.1]
      exact hv.2
    · rw [← hes.1]
      exact hes.2

theorem follows_reduceValue {u w : Value} (huw : u.Fills (becoming setting document) w)
    (hw : w.Every Node.Plain) {s : State} (hs : s.Filled setting document) :
    Follows setting document s (fun v v' _ => v = v' ∧ Settled setting document v)
      (reduceValue reduce w) fun i => reduceValue (meaning setting document i) u := by
  have hsame {w : Value} (hw : w.Every Node.Plain) {s : State} (hs : s.Filled setting document) :=
    Follows.of_sim hs (Coupling.Sim.reduceValue h hw)
  induction u using Value.induction generalizing w s with
  | list items ih =>
    obtain ⟨items', rfl, hitems⟩ := (Value.fills_list ..).1 huw
    rw [Value.every_list] at hw
    refine (follows_reduceItems (imp_of_mem_forall₂ hitems fun u hu w hmem huw s hs =>
      ih u hu huw (hw w hmem) hs) hs).map fun vs vs' s' hvs => ?_
    rw [hvs.1]
    refine ⟨rfl, (Value.every_list _).2 ?_⟩
    rw [← hvs.1]
    exact hvs.2
  | map entries ih =>
    obtain ⟨entries', rfl, hentries⟩ := (Value.fills_map ..).1 huw
    rw [Value.every_map] at hw
    refine (follows_reduceEntries (imp_of_mem_forall₂ hentries fun e he e' hmem hee =>
      ⟨hee.1, fun s hs => ih e he hee.2 (hw e' hmem) hs⟩) hs).map fun es es' s' hes => ?_
    rw [hes.1]
    refine ⟨rfl, (Value.every_map _).2 ?_⟩
    rw [← hes.1]
    exact hes.2
  | node tree =>
    rcases (Value.fills_node ..).1 huw with rfl | hmeans
    · exact hsame hw hs
    · intro v s' ha
      obtain ⟨hs', hadv, v', hv', rfl, hsettled⟩ := hsame hw hs v s' ha
      have hw' := eventually_reduceValue (.refl w) hmeans.2
      obtain ⟨i, hi, hi'⟩ := (hv'.and hw').exists
      have heq : v = w := by simpa [hi] using hi'
      rw [heq]
      exact ⟨hs', hadv, w, hmeans.1, rfl, hmeans.2⟩
  | _ =>
    obtain rfl : w = _ := by simpa using huw
    exact .pure hs ⟨rfl, by simp⟩

end

def Shows (setting : Setting) (document : Document) (s : State) : View → Cursor → Prop
  | .value u, .value w => u.Fills (becoming setting document) w ∧ w.Every Node.Plain
  | .entry u, .slot path =>
    ∃ w, s.document.slot? path = some w ∧ u.Fills (becoming setting document) w
  | .locals, .locals | .vars, .vars => True
  | _, _ => False

theorem Shows.advance {s s' : State} {view : View} {cursor : Cursor}
    (h : Shows setting document s view cursor) (hadv : s.Advance (becoming setting document) s') :
    Shows setting document s' view cursor := by
  cases view <;> cases cursor <;> try exact h
  case entry.slot u path =>
    obtain ⟨w, hw, huw⟩ := h
    obtain ⟨w', hw', hww'⟩ := hadv.document.at? hw
    exact ⟨w', hw', huw.trans closed_becoming hww'⟩

theorem shows_entryAt? {s : State} (hs : s.Filled setting document) {path : Path} {view : View}
    (h : entryAt? document path = some view) : Shows setting document s view (.slot path) := by
  obtain ⟨u, hu, rfl⟩ := Option.map_eq_some_iff.1 h
  obtain ⟨w, hw, huw⟩ := hs.fills.at? hu
  exact ⟨w, hw, huw⟩

theorem origin?_of_key {s : State} (hs : s.scopes = []) {name : String} (hlocal : name ≠ "local")
    (hvar : name ≠ "var") (hdata : name ≠ "data") :
    origin? s name = if Table.contains s.document name then some (.slot [.key name]) else none := by
  unfold origin?
  rw [hs, List.findSome?_nil]
  dsimp only
  split <;> simp_all

theorem shows_beginning? {s : State} (hs : s.Filled setting document) {name : String}
    {rest : List Node} (hplain : Node.Plain (.reference (.segment name :: rest))) :
    Option.Rel (Shows setting document s) (beginning? document name) (origin? s name) := by
  have hdata : name ≠ "data" := fun h => by
    have hread := hplain.self.2
    rw [h] at hread
    cases hread
  by_cases hlocal : name = "local"
  · rw [hlocal, origin?, hs.scopes]
    exact .some trivial
  by_cases hvar : name = "var"
  · rw [hvar, origin?, hs.scopes]
    exact .some trivial
  have hbeginning : beginning? document name = (Table.get? document name).map .entry := by
    unfold beginning?
    split <;> simp_all
  have hrel := Value.fillsEntry_get? (Value.fills_map_map.1 hs.fills) name
  have hslot := Document.slot?_key s.document name
  rw [hbeginning, origin?_of_key hs.scopes hlocal hvar hdata, Table.contains]
  generalize Table.get? document name = u? at hrel
  generalize Table.get? s.document name = w? at hrel hslot
  cases hrel with
  | none => exact .none
  | some huw => exact .some ⟨_, hslot, huw⟩

theorem Forced.shows_stepTo? {u w : Value} (h : Forced setting document u w) {s : State}
    {path : Path} (hslot : s.document.slot? path = some w) (accessor : Accessor) :
    Option.Rel (Shows setting document s) (((u.stepTo? accessor).bind u.child?).map .entry)
      ((w.stepTo? accessor).map fun step => .slot (path ++ [step])) := by
  rw [h.stepTo?_eq accessor]
  cases hstep : u.stepTo? accessor with
  | none => exact .none
  | some step =>
    obtain ⟨c, hc⟩ := Value.exists_child?_of_stepTo? hstep
    obtain ⟨c', hc', hcc⟩ := h.fills.child? hc
    rw [Option.bind_some, hc]
    refine .some ⟨c', ?_, hcc⟩
    rw [Document.slot?_append, hslot, Option.bind_some, hc']

theorem entryAt?_of_slot? {path : Path} {u : Value} (h : document.slot? path = some u) :
    entryAt? document path = some (.entry u) := by
  rw [entryAt?, h, Option.map_some]

theorem shows_localPath? (hshape : document.Shaped) {s : State} (hs : s.Filled setting document)
    (name : String) :
    Option.Rel (Shows setting document s) ((document.localPath? name).bind (entryAt? document))
      ((s.document.localPath? name).map .slot) := by
  rw [hshape.localPath?_eq hs.fills]
  cases hpath : document.localPath? name with
  | none => exact .none
  | some path =>
    obtain ⟨u, hu⟩ := Document.exists_slot?_of_localPath? hpath
    rw [Option.bind_some, entryAt?_of_slot? hu]
    exact .some (shows_entryAt? hs (entryAt?_of_slot? hu))

theorem shows_locals_select? (hshape : document.Shaped) {s : State}
    (hs : s.Filled setting document) (accessor : Accessor) :
    Option.Rel (Shows setting document s)
      (((Value.map document.locals).select? accessor).map .value)
      (((Value.map s.document.locals).select? accessor).map .value) := by
  have hrel := (hshape.fills_locals hs.fills).select? (by simp) accessor
  have hplain : ∀ c, (Value.map s.document.locals).select? accessor = some c →
      c.Every Node.Plain := fun c hc => (every_locals hs.staged.every).select? hc
  generalize (Value.map document.locals).select? accessor = c? at hrel
  generalize (Value.map s.document.locals).select? accessor = c?' at hrel hplain
  cases hrel with
  | none => exact .none
  | some hcc => exact .some ⟨hcc, hplain _ rfl⟩

theorem shows_variableView? (hsetting : setting.Pure) (hshape : document.Shaped) {s : State}
    (hs : s.Filled setting document) (accessor : Accessor) :
    Option.Rel (Shows setting document s) (variableView? setting document accessor)
      (variableAt? setting s.document accessor) := by
  have hfree : ∀ e ∈ setting.vars, e.2.Every Node.Plain :=
    fun e he => ((Value.every_map _).1 hsetting.vars e he).mono fun _ h => h.elim
  unfold variableView?
  cases accessor with
  | name name =>
    simp only [variableAt?, hshape.variableDefault?_eq hs.fills]
    cases hv : setting.vars.get? name with
    | some v => exact .some ⟨.refl v, hfree _ (Table.mem_of_get? hv)⟩
    | none =>
      simp only
      cases hc : variableDefault? document name with
      | none => exact .none
      | some cursor =>
        rcases variableDefault?_cases hc with rfl | ⟨path, rfl⟩
        · exact .some ⟨.refl .null, by simp⟩
        · obtain ⟨u, hu⟩ := hshape.exists_slot?_of_variableDefault? hc
          simp only [Option.bind_eq_bind, Option.bind_some, entryAt?_of_slot? hu]
          exact .some (shows_entryAt? hs (entryAt?_of_slot? hu))
  | index x =>
    simp only [variableAt?]
    cases hx : x.index? with
    | none => exact .none
    | some i =>
      simp only [Option.bind_eq_bind, Option.bind_some]
      cases he : setting.vars[i]? with
      | none => exact .none
      | some e => exact .some ⟨.refl e.2, hfree e (List.mem_of_getElem? he)⟩

section
variable {reduce : Node → Eval Value} (h : Understands setting document reduce)
variable (hsetting : setting.Pure) (hshape : document.Shaped) (depth : ℕ)
include h hsetting hshape

theorem follows_advance {s : State} (hs : s.Filled setting document) {view : View}
    {cursor : Cursor} (hshows : Shows setting document s view cursor) (accessor : Accessor) :
    Follows setting document s (fun c? v? s' => Option.Rel (Shows setting document s') v? c?)
      (advance reduce setting depth accessor cursor)
      fun i => onward (meaning setting document i) setting document accessor view := by
  cases view <;> cases cursor <;> simp only [Shows] at hshows
  case value.value u w =>
    refine (follows_force h hs hshows.1 hshows.2).map fun w' u' s' hforced => ?_
    have hrel := hforced.select? accessor
    generalize u'.select? accessor = c? at hrel
    generalize w'.select? accessor = c?' at hrel
    cases hrel with
    | none => exact .none
    | some hcc => exact .some hcc
  case entry.slot u path =>
    obtain ⟨w, hw, huw⟩ := hshows
    refine (follows_forceSlot h hs hw huw).bind fun _ u' s' ⟨w', hw', hforced⟩ hs' _ => ?_
    intro x s'' ha
    rw [Eval.outcome_bind_ok (outcome_slot? hw'), Option.bind_some] at ha
    have hx : x = (w'.stepTo? accessor).map (fun step => .slot (path ++ [step])) ∧ s'' = s' := by
      cases hstep : w'.stepTo? accessor <;> rw [hstep] at ha <;> cases ha <;> exact ⟨rfl, rfl⟩
    rw [hx.1, hx.2]
    exact ⟨hs', .refl _, _, .of_forall fun _ => rfl, hforced.shows_stepTo? hw' accessor⟩
  case locals.locals =>
    cases accessor with
    | name name => exact Follows.pure hs (shows_localPath? hshape hs name)
    | index x => exact Follows.pure hs (shows_locals_select? hshape hs (.index x))
  case vars.vars => exact Follows.pure hs (shows_variableView? hsetting hshape hs accessor)

end

end HclEval
