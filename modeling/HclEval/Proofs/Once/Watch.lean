import HclEval.Proofs.Coupling.Evaluation

/-!
Watched evaluations. Some functions are watched, and one place of the document. A tree is quiet if
it calls none of these functions and does not select among the locals by position where that could
read a copy of the tree at the place. What is watched is any property of the document and the calls
so far that outlasts the evaluation of the trees in question; it is proved once that whatever is
put together from such trees keeps it as well.
-/
namespace HclEval

open Reduction

def Call.isOf (watched : String → Bool) : Call → Bool
  | .function name _ => watched name
  | .lookup .. => false

namespace Node

def callsOneOf (watched : String → Bool) : Node → Bool
  | .call name _ _ => watched name
  | _ => false

/-- Does a reference select among the locals by anything but a plain name? -/
def selectsLocal : Node → Bool
  | .reference (.segment "local" :: .segment _ :: _) => false
  | .reference (.segment "local" :: _ :: _) => true
  | _ => false

theorem segment_of_selectsLocal {part : Node} {rest : List Node}
    (h : (reference (.segment "local" :: part :: rest)).selectsLocal = false) :
    ∃ name, part = .segment name := by
  cases part with
  | segment name => exact ⟨name, rfl⟩
  | _ => cases h

variable (watched : String → Bool) (path : Path)

/-- No watched call, and no selection by position if the place is one of the locals. -/
def Quiet (tree : Node) : Prop :=
  tree.Every fun part => part.callsOneOf watched = false ∧
    (path.head? = some (.key "locals") → part.selectsLocal = false)

def QuietReferences (tree : Node) : Prop :=
  tree.Every fun part => part.isReference = true → part.Quiet watched path

def Leftover (tree : Node) : Prop := tree.isReference = true ∧ tree.Quiet watched path

abbrev leaving : Value.Becoming := fun _ v => v.Every (Leftover watched path)

variable {watched path}

theorem Quiet.references {tree : Node} (h : tree.Quiet watched path) :
    tree.QuietReferences watched path := by
  unfold Quiet at h
  induction h with
  | intro node here below ih => exact .intro node (fun _ => .intro node here below) ih

end Node

/-- Functions, lookups and variables that bring no watched calls of their own. -/
structure Setting.Quiet (setting : Setting) (watched : String → Bool) (path : Path) : Prop where
  functions : ∀ {name f calls values v}, setting.functions.get? name = some f →
    (∀ v ∈ values, v.Every (Node.Leftover watched path)) → f calls values = .ok v →
      v.Every (Node.Leftover watched path)
  lookups : ∀ {provider lookup calls properties result},
    setting.lookups.get? provider = some lookup →
      (Value.map properties).Every (Node.Leftover watched path) →
        lookup calls properties = .ok result → (Value.map result).Every (Node.Quiet watched path)
  vars : (Value.map setting.vars).Every (Node.Quiet watched path)

structure State.Quiet (watched : String → Bool) (path : Path) (s : State) : Prop where
  cache : s.cache.toValue.Every (Node.Quiet watched path)
  scopes : ∀ scope ∈ s.scopes, (Value.map scope).Every (Node.Quiet watched path)

/-- What is watched: a property of the document and the calls so far, which lasts while trees of
some kind are evaluated. -/
structure Watch (watched : String → Bool) (path : Path) where
  trees : Node → Prop
  holds : Document → List Call → Prop
  hereditary : Node.Hereditary trees
  trees_of_quiet : ∀ tree, tree.Quiet watched path → trees tree
  quiet_of_reference : ∀ segments, trees (.reference segments) →
    (Node.reference segments).Quiet watched path
  call : ∀ {name arguments spread document calls}, trees (.call name arguments spread) →
    holds document calls → ∀ values, holds document (calls ++ [.function name values])
  lookup : ∀ {document calls}, holds document calls → ∀ provider inst properties,
    holds document (calls ++ [.lookup provider inst properties])

namespace Watch

variable {watched : String → Bool} {path : Path} {setting : Setting} (W : Watch watched path)

def coupling : Coupling where
  rel s t := s = t ∧ s.Quiet watched path ∧ W.holds s.document s.calls
  strict _ := False
  trees := W.trees
  results := Node.Leftover watched path
  becomes := Node.leaving watched path
  hereditary := W.hereditary
  trees_of_results tree h := W.trees_of_quiet tree h.2
  every_of_becomes _ _ h := h
  closed _ _ _ hv hvw := hvw.every (fun _ _ h => h) hv

section
variable (hsetting : setting.Quiet watched path)
include hsetting

theorem sim_invoke {name : String} {arguments : List Node} {spread : Bool}
    (hcall : W.trees (.call name arguments spread)) {values : List Value}
    (hvalues : ∀ v ∈ values, v.Every (Node.Leftover watched path)) :
    W.coupling.Sim W.coupling.Result (invoke setting name values)
      fun _ => invoke setting name values := by
  rintro s t ⟨rfl, hs, hholds⟩
  cases hf : setting.functions.get? name with
  | none =>
    have hst : W.coupling.rel s s := ⟨rfl, hs, hholds⟩
    rw [invoke_of_none hf]
    exact .pure hst (by simp)
  | some f =>
    have hrun := outcome_invoke hf values s
    refine .of_outcome hrun hrun ⟨rfl, ⟨hs.cache, hs.scopes⟩, W.call hcall hholds values⟩
      ⟨⟨rfl, rfl⟩, .refl _⟩ ⟨rfl, rfl⟩ fun v hv => ?_
    exact hsetting.functions hf hvalues (ok_of_functionResult hv)

theorem sim_consult {provider inst : String} {lookup : Lookup} {properties : Table Value}
    (hlookup : setting.lookups.get? provider = some lookup)
    (hproperties : (Value.map properties).Every (Node.Leftover watched path)) :
    W.coupling.Sim (fun v _ => v.Every W.trees) (consult lookup provider inst properties)
      fun _ => consult lookup provider inst properties := by
  rintro s t ⟨rfl, hs, hholds⟩
  have hv : (lookupValue (lookup s.calls properties)).Every (Node.Quiet watched path) := by
    cases hresult : lookup s.calls properties with
    | ok result => exact hsetting.lookups hlookup hproperties hresult
    | error _ => simp [lookupValue]
  have hrun := outcome_consult lookup provider inst properties s
  refine .of_outcome hrun hrun
    ⟨rfl, ⟨every_cache_insert hs.cache hv, hs.scopes⟩, W.lookup hholds provider inst properties⟩
    ⟨⟨rfl, rfl⟩, .refl _⟩ ⟨rfl, rfl⟩ fun v heq => ?_
  cases heq
  exact hv.mono W.trees_of_quiet

theorem guided : W.coupling.Guided setting setting where
  document_eq h := by rw [h.1]
  vars_eq := rfl
  lookups_eq := rfl
  limit := .inl rfl
  cache_eq h := by rw [h.1]
  resolving_eq h := by rw [h.1]
  scopes_eq _ h := by rw [h.1]
  vars := hsetting.vars.mono W.trees_of_quiet
  cache h := h.2.1.cache.mono W.trees_of_quiet
  scopes := fun {s t name v} h hv => by
    obtain ⟨scope, hmem, hget⟩ := List.exists_of_findSome?_eq_some hv
    have hscope := (Value.every_map scope).1 (h.2.1.scopes scope hmem)
    exact (hscope _ (Table.mem_of_get? hget)).mono W.trees_of_quiet
  unresolved h := ⟨rfl, W.quiet_of_reference _ h⟩
  consult _ := W.sim_consult hsetting
  enter := fun {s t path} h _ _ => by
    obtain ⟨rfl, hs, hholds⟩ := h
    exact ⟨rfl, ⟨hs.cache, hs.scopes⟩, hholds⟩
  leave := fun {s t s' t'} h h' => by
    obtain ⟨rfl, -, -⟩ := h
    obtain ⟨rfl, hs, hholds⟩ := h'
    exact ⟨rfl, ⟨hs.cache, hs.scopes⟩, hholds⟩

omit hsetting in
theorem opens : W.coupling.Scoped := by
  refine Coupling.Scoped.of_rel (fun s t scope h hscope => ?_) fun s t s' t' h h' => ?_
  · obtain ⟨rfl, hs, hholds⟩ := h
    have hquiet := hscope.mono fun _ (hleft : Node.Leftover watched path _) => hleft.2
    exact ⟨rfl, ⟨hs.cache, List.forall_mem_cons.2 ⟨hquiet, hs.scopes⟩⟩, hholds⟩
  · obtain ⟨rfl, hs, -⟩ := h
    obtain ⟨rfl, hs', hholds⟩ := h'
    exact ⟨rfl, ⟨hs'.cache, hs.scopes⟩, hholds⟩

/-- What is watched lasts while any of the trees is evaluated, if it lasts while those that the
document holds are forced in place. -/
theorem sim_reduceNode {stored : Node → Prop}
    (hsettling : ∀ depth, (∀ tree, W.trees tree → W.coupling.Sim W.coupling.Result
      (reduceNode setting depth tree) fun _ => reduceNode setting depth tree) →
        W.coupling.Settling stored (reduceNode setting depth) fun _ => reduceNode setting depth)
    (depth : ℕ) {tree : Node} (htree : W.trees tree) :
    W.coupling.Sim W.coupling.Result (reduceNode setting depth tree)
      fun _ => reduceNode setting depth tree := by
  induction depth generalizing tree with
  | zero => exact .throw _
  | succ depth ih =>
    -- of all functions only the one that the tree itself calls matters here
    obtain ⟨call, hcall, heq⟩ : ∃ call : String → List Value → Eval Value,
        (∀ name values, (∀ v ∈ values, v.Every (Node.Leftover watched path)) →
          W.coupling.Sim W.coupling.Result (call name values) fun _ => call name values) ∧
        stepWith (resolveReference (reduceNode setting depth) setting depth) (invoke setting)
            (reduceNode setting depth) tree =
          stepWith (resolveReference (reduceNode setting depth) setting depth) call
            (reduceNode setting depth) tree := by
      cases tree with
      | call name arguments spread =>
        exact ⟨fun _ => invoke setting name,
          fun _ values hvalues => W.sim_invoke hsetting htree hvalues, rfl⟩
      | _ => exact ⟨fun _ _ => throw .exhausted, fun _ _ _ => .throw _, rfl⟩
    simp only [Reduction.reduceNode, reduceStep_eq, heq]
    exact Coupling.Sim.stepWith (fun tree htree => ih htree)
      (fun segments hr => (W.guided hsetting).resolveReference (fun tree htree => ih htree)
        (hsettling depth fun tree htree => ih htree) (.refl _ depth) hr)
      hcall (fun _ => W.opens) htree

end

theorem located (hdocument : ∀ {document calls}, W.holds document calls →
      (Value.map document).Staged W.trees (Node.Leftover watched path))
    (hput : ∀ {s s' : State} {place tree v}, W.holds s.document s.calls →
      s.document.slot? place = some (.node tree) → W.holds s'.document s'.calls →
        s.Advance W.coupling.becomes s' → v.Every (Node.Leftover watched path) →
          W.holds (s'.document.put place v) s'.calls) : W.coupling.Located where
  document_eq h := by rw [h.1]
  document h := hdocument h.2.2
  put := fun {s t s' t' place tree v} h hslot h' hadv hv => by
    obtain ⟨rfl, -, hholds⟩ := h
    obtain ⟨rfl, hs', hholds'⟩ := h'
    exact ⟨rfl, ⟨hs'.cache, hs'.scopes⟩, hput hholds hslot hholds' hadv hv⟩

def since (watched : String → Bool) (path : Path) (before : List Call) : Watch watched path where
  trees := Node.QuietReferences watched path
  holds document calls := (Value.map document).Staged (Node.QuietReferences watched path)
    (Node.Leftover watched path) ∧ before <+: calls
  hereditary := Node.hereditary_every _
  trees_of_quiet _ h := h.references
  quiet_of_reference _ h := h.self rfl
  call := fun _ h _ => ⟨h.1, h.2.trans (List.prefix_append ..)⟩
  lookup := fun h _ _ _ => ⟨h.1, h.2.trans (List.prefix_append ..)⟩

theorem since_located (before : List Call) : (since watched path before).coupling.Located := by
  refine located _ (fun h => h.1) fun {s s' place tree v} _ hslot h' _ hv => ⟨?_, h'.2⟩
  rw [Document.map_put _ (Document.ne_nil_of_slot?_node hslot)]
  exact h'.1.put (hv.staged fun tree htree => htree.2.references)

theorem since_sim (hsetting : setting.Quiet watched path) (before : List Call) (depth : ℕ)
    {tree : Node} (htree : tree.QuietReferences watched path) :
    (since watched path before).coupling.Sim (since watched path before).coupling.Result
      (reduceNode setting depth tree) fun _ => reduceNode setting depth tree :=
  (since watched path before).sim_reduceNode hsetting
    (fun _ h => (since_located before).settling h) depth htree

end Watch

theorem Setting.Quiet.evaluates {setting : Setting} {watched : String → Bool} {path : Path}
    (hsetting : setting.Quiet watched path) {depth : ℕ} {tree : Node}
    (htree : tree.QuietReferences watched path) {s s' : State} {v : Value}
    (hs : s.Quiet watched path)
    (hstaged : (Value.map s.document).Staged (Node.QuietReferences watched path)
      (Node.Leftover watched path))
    (h : (reduceNode setting depth tree).outcome s = (.ok v, s')) :
    s'.Quiet watched path ∧ s.calls <+: s'.calls ∧
      (Value.map s'.document).Staged (Node.QuietReferences watched path)
        (Node.Leftover watched path) ∧
      v.Every (Node.Leftover watched path) ∧ s.Advance (Node.leaving watched path) s' := by
  obtain ⟨t', -, ⟨-, hs', hstaged', hcalls⟩, hadv, -, hv⟩ :=
    Watch.since_sim hsetting s.calls depth htree s s ⟨rfl, hs, hstaged, List.prefix_rfl⟩ _ s' h
      nofun
  exact ⟨hs', hcalls, hstaged', hv v rfl, hadv⟩

end HclEval
