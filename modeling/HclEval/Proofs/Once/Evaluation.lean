import HclEval.Proofs.Once.Places
import HclEval.Proofs.Once.Watch
import HclEval.Proofs.Refinement

/-!
A tree of the document is evaluated once. While it waits at its place no watched function is called,
whatever else is evaluated; all calls of watched functions then belong to one evaluation of the
tree, whose value is stored at the place; and after that none of them is called again, whoever reads
the place. What an evaluation does that leads back to its own tree counts with it. References that
select among the locals by position do not keep to this: they read copies of trees, and evaluate
them beside their places.
-/
namespace HclEval

open Reduction

/-- Of the calls between two states those of watched functions were all made by a single evaluation
of the tree at a place, and the place still holds the value of that evaluation. -/
def EvaluatedOnce (setting : Setting) (watched : String → Bool) (path : Path) (tree : Node)
    (first last : State) : Prop :=
  ∃ depth start v stop before during after w,
    (reduceNode setting depth tree).outcome start = (.ok v, stop) ∧
    (Value.map first.document).RefinedBy (.map start.document) ∧
    start.document.slot? path = some (.node tree) ∧
    start.calls = first.calls ++ before ∧ stop.calls = start.calls ++ during ∧
    last.calls = stop.calls ++ after ∧ (∀ call ∈ before ++ after, call.isOf watched = false) ∧
    last.document.slot? path = some w ∧ v.RefinedBy w

def Call.Unwatched (watched : String → Bool) (calls all : List Call) : Prop :=
  ∃ new, all = calls ++ new ∧ ∀ call ∈ new, call.isOf watched = false

namespace Once

variable (watched : String → Bool) (path : Path) (tree : Node)

/-- The tree is still at its place. All others are quiet in the first document, so they are in any
that it is filled in to. -/
structure Waiting (first : State) (document : Document) (calls : List Call) : Prop where
  fills : (Value.map first.document).Fills (Node.leaving watched path) (.map document)
  staged : (Value.map document).Staged (fun other => other.Quiet watched path ∨ other = tree)
    (Node.Leftover watched path)
  slot : document.slot? path = some (.node tree)
  calls : Call.Unwatched watched first.calls calls

structure Kept (v : Value) (stop : List Call) (document : Document) (calls : List Call) :
    Prop where
  staged : (Value.map document).Staged (Node.Quiet watched path) (Node.Leftover watched path)
  slot : ∃ w, document.slot? path = some w ∧ v.Fills (Node.leaving watched path) w
  calls : Call.Unwatched watched stop calls

def Evaluated (setting : Setting) (first : State) (document : Document) (calls : List Call) :
    Prop :=
  ∃ depth start v stop, Waiting watched path tree first start.document start.calls ∧
    (reduceNode setting depth tree).outcome start = (.ok v, stop) ∧ start.calls <+: stop.calls ∧
    Kept watched path v stop.calls document calls

end Once

open Once

variable {watched : String → Bool} {path : Path} {tree : Node} {setting : Setting}

namespace Call

theorem Unwatched.refl (calls : List Call) : Unwatched watched calls calls :=
  ⟨[], (List.append_nil calls).symm, by simp⟩

theorem Unwatched.append {calls all : List Call} (h : Unwatched watched calls all) {call : Call}
    (hcall : call.isOf watched = false) : Unwatched watched calls (all ++ [call]) := by
  obtain ⟨new, rfl, hnew⟩ := h
  refine ⟨new ++ [call], by rw [List.append_assoc], ?_⟩
  simpa [or_imp, forall_and] using ⟨hnew, hcall⟩

end Call

theorem Node.Quiet.isOf {name : String} {arguments : List Node} {spread : Bool}
    (h : (Node.call name arguments spread).Quiet watched path) (values : List Value) :
    (Call.function name values).isOf watched = false := h.self.1

theorem Once.Waiting.append {first : State} {document : Document} {calls : List Call}
    (h : Waiting watched path tree first document calls) {call : Call}
    (hcall : call.isOf watched = false) :
    Waiting watched path tree first document (calls ++ [call]) :=
  ⟨h.fills, h.staged, h.slot, h.calls.append hcall⟩

theorem Once.Kept.append {v : Value} {stop : List Call} {document : Document} {calls : List Call}
    (h : Kept watched path v stop document calls) {call : Call}
    (hcall : call.isOf watched = false) : Kept watched path v stop document (calls ++ [call]) :=
  ⟨h.staged, h.slot, h.calls.append hcall⟩

theorem Once.Evaluated.append {first : State} {document : Document} {calls : List Call}
    (h : Evaluated watched path tree setting first document calls) {call : Call}
    (hcall : call.isOf watched = false) :
    Evaluated watched path tree setting first document (calls ++ [call]) := by
  obtain ⟨depth, start, v, stop, hwaiting, hrun, hcalls, hkept⟩ := h
  exact ⟨depth, start, v, stop, hwaiting, hrun, hcalls, hkept.append hcall⟩

theorem Once.Evaluated.staged {first : State} {document : Document} {calls : List Call}
    (h : Evaluated watched path tree setting first document calls) :
    (Value.map document).Staged (Node.Quiet watched path) (Node.Leftover watched path) := by
  obtain ⟨_, _, _, _, _, _, _, hkept⟩ := h
  exact hkept.staged

namespace Watch

def kept (watched : String → Bool) (path : Path) (v : Value) (stop : List Call) :
    Watch watched path where
  trees := Node.Quiet watched path
  holds := Kept watched path v stop
  hereditary := Node.hereditary_every _
  trees_of_quiet _ h := h
  quiet_of_reference _ h := h
  call := fun hquiet h values => h.append (hquiet.isOf values)
  lookup := fun h _ _ _ => h.append rfl

def once (watched : String → Bool) (path : Path) (tree : Node) (setting : Setting)
    (first : State) : Watch watched path where
  trees := Node.Quiet watched path
  holds document calls := Waiting watched path tree first document calls ∨
    Evaluated watched path tree setting first document calls
  hereditary := Node.hereditary_every _
  trees_of_quiet _ h := h
  quiet_of_reference _ h := h
  call := fun hquiet h values =>
    h.imp (·.append (hquiet.isOf values)) (·.append (hquiet.isOf values))
  lookup := fun h _ _ _ => h.imp (·.append rfl) (·.append rfl)

theorem kept_located (v : Value) (stop : List Call) :
    (kept watched path v stop).coupling.Located := by
  refine located _ (fun h => h.staged) fun {s s' place other u} h hslot h' hadv hu => ?_
  have hput := Document.map_put s'.document (Document.ne_nil_of_slot?_node hslot) u
  refine ⟨?_, ?_, h'.calls⟩
  · rw [hput]
    exact h'.staged.put (hu.staged fun other hleft => hleft.2)
  · obtain ⟨w, hw, hfills⟩ := h.slot
    obtain ⟨w', hw', hfills'⟩ := (hadv.document.put hslot hu).at? hw
    rw [← hput] at hw'
    exact ⟨w', hw', hfills.trans (kept watched path v stop).coupling.closed hfills'⟩

theorem kept_sim (hsetting : setting.Quiet watched path) (v : Value) (stop : List Call)
    (depth : ℕ) {other : Node} (hother : other.Quiet watched path) :
    (kept watched path v stop).coupling.Sim (kept watched path v stop).coupling.Result
      (reduceNode setting depth other) fun _ => reduceNode setting depth other :=
  (kept watched path v stop).sim_reduceNode hsetting
    (fun _ h => (kept_located v stop).settling h) depth hother

theorem at_mono {W W' : Watch watched path}
    (hle : ∀ document calls, W.holds document calls → W'.holds document calls) {α : Type}
    {s : State} {post : α → State → Prop} {a : Eval α} {b : ℕ → Eval α}
    (h : W.coupling.At s s post a b) : W'.coupling.At s s post a b := by
  intro r s' ha he
  obtain ⟨t', hb, ⟨heq, hs', hholds⟩, hadv, hbal, hpost⟩ := h r s' ha he
  exact ⟨t', hb, ⟨heq, hs', hle _ _ hholds⟩, hadv, hbal, hpost⟩

end Watch

variable {first : State}

theorem Once.Waiting.put {s s' : State} {place : Path} {other : Node} {v : Value}
    (h : Waiting watched path tree first s.document s.calls)
    (hslot : s.document.slot? place = some (.node other)) (hne : place ≠ path)
    (h' : Waiting watched path tree first s'.document s'.calls)
    (hadv : s.Advance (Node.leaving watched path) s')
    (hv : v.Every (Node.Leftover watched path)) :
    Waiting watched path tree first (s'.document.put place v) s'.calls := by
  have hput := Document.map_put s'.document (Document.ne_nil_of_slot?_node hslot) v
  refine ⟨?_, ?_, ?_, h'.calls⟩
  · rw [hput]
    have hclosed : (Node.leaving watched path).Closed :=
      fun _ _ _ hv hvw => hvw.every (fun _ _ h => h) hv
    exact h.fills.trans hclosed (hadv.document.put hslot hv)
  · rw [hput]
    exact h'.staged.put (hv.staged fun other hleft => .inl hleft.2)
  · rw [Document.slot?, hput, Value.at?_put_of_ne hslot h.slot hne]
    exact h'.slot

theorem Once.Waiting.put_evaluated {s s' : State} {place : Path} {other : Node} {v : Value}
    (h : Waiting watched path tree first s.document s.calls)
    (hslot : s.document.slot? place = some (.node other)) (hne : place ≠ path)
    (h' : Evaluated watched path tree setting first s'.document s'.calls)
    (hv : v.Every (Node.Leftover watched path)) :
    Evaluated watched path tree setting first (s'.document.put place v) s'.calls := by
  obtain ⟨depth, start, u, stop, hstart, hrun, hcalls, hkept⟩ := h'
  have hput := Document.map_put s'.document (Document.ne_nil_of_slot?_node hslot) v
  refine ⟨depth, start, u, stop, hstart, hrun, hcalls, ?_, ?_, hkept.calls⟩
  · rw [hput]
    exact hkept.staged.put (hv.staged fun other hleft => hleft.2)
  · rw [Document.slot?, hput, Value.at?_put_of_ne hslot h.slot hne]
    exact hkept.slot

section
variable (hrest : ∀ place other, place ≠ path →
  first.document.slot? place = some (.node other) → other.Quiet watched path)
include hrest

theorem Once.Waiting.quiet {document : Document} {calls : List Call}
    (h : Waiting watched path tree first document calls) {place : Path} {other : Node}
    (hne : place ≠ path) (hslot : document.slot? place = some (.node other)) :
    other.Quiet watched path := by
  rcases h.fills.tree_at? (fun _ _ hleaving => hleaving) hslot with hfirst | hleft
  · exact hrest place other hne hfirst
  · exact hleft.2

theorem Once.Waiting.locals {document : Document} {calls : List Call}
    (h : Waiting watched path tree first document calls)
    (hpath : path.head? ≠ some (.key "locals")) :
    (Value.map document.locals).Every (Node.Quiet watched path) := by
  refine every_locals_of_slot fun v hv => ?_
  have hslot : (Value.map document).at? [.key "locals"] = some v :=
    (Document.slot?_key document "locals").trans hv
  refine ((h.staged.at? hslot).narrow (fun other hleft => hleft.2)
    fun place other hother => ?_).every
  have hne : .key "locals" :: place ≠ path := fun heq => hpath (by rw [← heq]; rfl)
  refine h.quiet hrest hne ?_
  rw [Document.slot?, ← List.singleton_append, Value.at?_append, hslot]
  exact hother

omit hrest in
theorem Once.Waiting.evaluates (hsetting : setting.Quiet watched path)
    (htree : tree.QuietReferences watched path) {s s' : State} {depth : ℕ} {v : Value}
    (h : Waiting watched path tree first s.document s.calls) (hs : s.Quiet watched path)
    (hrun : (reduceNode setting depth tree).outcome s = (.ok v, s')) :
    s'.Quiet watched path ∧ s.calls <+: s'.calls ∧
      (Value.map s'.document).Staged (Node.QuietReferences watched path)
        (Node.Leftover watched path) ∧
      v.Every (Node.Leftover watched path) ∧ s.Advance (Node.leaving watched path) s' :=
  hsetting.evaluates htree hs
    (h.staged.mono (fun _ hother => hother.elim (·.references) (· ▸ htree)) fun _ hleft => hleft)
    hrun

theorem Once.Waiting.evaluated (hsetting : setting.Quiet watched path)
    (htree : tree.QuietReferences watched path) {s s' : State} {depth : ℕ} {v : Value}
    (h : Waiting watched path tree first s.document s.calls) (hs : s.Quiet watched path)
    (hrun : (reduceNode setting depth tree).outcome s = (.ok v, s')) :
    Evaluated watched path tree setting first (s'.document.put path v) s'.calls := by
  have hpath := Document.ne_nil_of_slot?_node h.slot
  have hput := Document.map_put s'.document hpath v
  obtain ⟨-, hcalls, hstaged, hv, hadv⟩ := h.evaluates hsetting htree hs hrun
  have hslot := hadv.slot?_put h.slot v
  refine ⟨depth, s, v, s', h, hrun, hcalls, ?_, ⟨v, hslot, .refl v⟩, .refl _⟩
  have hfilled : (Value.map (s'.document.put path v)).Staged (Node.QuietReferences watched path)
      (Node.Leftover watched path) :=
    hput ▸ hstaged.put (hv.staged fun other hleft => hleft.2.references)
  refine hfilled.narrow (fun other hleft => hleft.2) fun place other hother => ?_
  by_cases hne : place = path
  · subst hne
    have heq : v = .node other := Option.some.inj (hslot.symm.trans hother)
    rw [heq] at hv
    exact ((Value.every_node _).1 hv).2
  · rw [hput] at hother
    rcases (hadv.document.put h.slot hv).tree_at? (fun _ _ hleaving => hleaving) hother with
      hbefore | hleft
    · exact h.quiet hrest hne hbefore
    · exact hleft.2

theorem Watch.once_force (hsetting : setting.Quiet watched path)
    (htree : tree.QuietReferences watched path) (depth : ℕ) {s : State}
    (h : Waiting watched path tree first s.document s.calls) (hs : s.Quiet watched path) :
    (once watched path tree setting first).coupling.At s s
      (fun _ s' => ∃ v, s'.document.slot? path = some v ∧ v.Every (Node.Leftover watched path))
      (forceSlot (reduceNode setting depth) path)
      fun _ => forceSlot (reduceNode setting depth) path := by
  have hforce : (forceSlot (reduceNode setting depth) path).outcome s = _ :=
    outcome_forceSlot h.slot
  rcases hrun : (reduceNode setting depth tree).outcome s with ⟨e | v, s'⟩ <;> rw [hrun] at hforce
  · intro r s'' ha he
    rw [hforce] at ha
    obtain ⟨rfl, rfl⟩ := Prod.mk.inj ha
    exact (he e rfl).elim
  · obtain ⟨hs', -, -, hv, hadv⟩ := h.evaluates hsetting htree hs hrun
    exact .of_outcome hforce hforce
      ⟨rfl, ⟨hs'.cache, hs'.scopes⟩, .inr (h.evaluated hrest hsetting htree hs hrun)⟩
      (hadv.put h.slot hv) ⟨hadv.scopes, hadv.resolving⟩
      fun _ _ => ⟨v, hadv.slot?_put h.slot v, hv⟩

theorem Watch.once_settling (hsetting : setting.Quiet watched path)
    (htree : tree.QuietReferences watched path) {depth : ℕ}
    (h : ∀ other, (once watched path tree setting first).trees other →
      (once watched path tree setting first).coupling.Sim
        (once watched path tree setting first).coupling.Result
        (reduceNode setting depth other) fun _ => reduceNode setting depth other) :
    (once watched path tree setting first).coupling.Settling
      (fun other => other.Quiet watched path ∨ other = tree) (reduceNode setting depth)
      fun _ => reduceNode setting depth where
  document_eq h := by rw [h.1]
  document := fun {s t} hst => by
    obtain ⟨-, -, hwaiting | hevaluated⟩ := hst
    · exact hwaiting.staged
    · exact hevaluated.staged.mono (fun _ => .inl) fun _ hleft => hleft
  byName := fun {rest} hlocal => by
    by_cases hpath : path.head? = some (.key "locals")
    · refine .inl fun part hpart => ?_
      obtain ⟨rest, rfl⟩ := List.head?_eq_some_iff.1 hpart
      exact Node.segment_of_selectsLocal ((Node.Every.self hlocal).2 hpath)
    · refine .inr fun s t ⟨_, _, hholds⟩ => ?_
      obtain hwaiting | hevaluated := hholds
      · exact hwaiting.locals hrest hpath
      · exact every_locals hevaluated.staged.every
  force := fun {s t place other} hst hslot => by
    obtain ⟨rfl, hs, hholds⟩ := hst
    rcases hholds with hwaiting | ⟨_, start, v, stop, hstart, hrun, hcalls, hkept⟩
    · by_cases hne : place = path
      · subst hne
        exact once_force hrest hsetting htree depth hwaiting hs
      · refine .forceSlot_of_put rfl hslot
          (h other (hwaiting.quiet hrest hne hslot) s s ⟨rfl, hs, .inl hwaiting⟩) ?_
        rintro s' t' v ⟨rfl, hs', hholds'⟩ hadv hv
        refine ⟨rfl, ⟨hs'.cache, hs'.scopes⟩, ?_⟩
        exact hholds'.imp (fun h' => hwaiting.put hslot hne h' hadv hv)
          fun h' => hwaiting.put_evaluated hslot hne h' hv
    · have hforce := Coupling.At.forceSlot (fun other => kept_sim hsetting v stop.calls depth)
        (kept_located v stop.calls) ⟨rfl, hs, hkept⟩ hslot
      refine at_mono (fun document calls hkept' => Or.inr ?_) hforce
      exact ⟨_, start, v, stop, hstart, hrun, hcalls, hkept'⟩

theorem Once.Waiting.resolveDocument (hsetting : setting.Quiet watched path)
    (htree : tree.QuietReferences watched path) (hother : tree.isReference = false) {depth : ℕ}
    {s last : State} (h : Waiting watched path tree first s.document s.calls)
    (hs : s.Quiet watched path)
    (hrun : (resolveDocument setting depth).outcome s = (.ok (), last)) :
    Evaluated watched path tree setting first last.document last.calls := by
  have hsettling := Watch.once_settling hrest hsetting htree fun _ hquiet =>
    (Watch.once watched path tree setting first).sim_reduceNode hsetting
      (fun _ => Watch.once_settling hrest hsetting htree) depth hquiet
  obtain ⟨-, -, ⟨-, -, hholds⟩, -, -, hpost⟩ :=
    hsettling.resolveDocument (.refl _ depth) s s ⟨rfl, hs, .inl h⟩ _ _ hrun nofun
  refine hholds.resolve_left fun hwaiting => ?_
  -- at the end all that is left are references
  have hevery : (Value.map last.document).Every (Node.Leftover watched path) := hpost () rfl
  have hleft : tree.Leftover watched path := (Value.every_node _).1 (hevery.at? hwaiting.slot)
  rw [hleft.1] at hother
  cases hother

end

theorem Once.Evaluated.once {last : State}
    (h : Evaluated watched path tree setting first last.document last.calls) :
    EvaluatedOnce setting watched path tree first last := by
  obtain ⟨depth, start, v, stop, hstart, hrun, ⟨during, hduring⟩, hkept⟩ := h
  obtain ⟨before, hbefore, hcalls⟩ := hstart.calls
  obtain ⟨after, hafter, hcalls'⟩ := hkept.calls
  obtain ⟨w, hw, hfills⟩ := hkept.slot
  refine ⟨depth, start, v, stop, before, during, after, w, hrun,
    hstart.fills.mono fun _ _ _ => trivial, hstart.slot, hbefore, hduring.symm, hafter, ?_, hw,
    hfills.mono fun _ _ _ => trivial⟩
  exact fun call hmem => (List.mem_append.1 hmem).elim (hcalls call) (hcalls' call)

def tickSetting : Setting :=
  ⟨[("tick", fun calls _ => .ok (.number (.ofNat (calls.length + 1))))], [], [], 64⟩

end HclEval
