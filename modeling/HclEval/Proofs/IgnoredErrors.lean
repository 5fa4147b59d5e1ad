import HclEval.Proofs.Leftovers
import HclEval.Session

/-!
Evaluating documents with errors ignored. A document that can be evaluated comes to the same. Of
one that cannot there is what had been built and settled before the error, and what is settled
stays settled: the entries that come before the one that fails are evaluated altogether.
-/
namespace HclEval

open Reduction

namespace Source

theorem filterMap_node_of_structureNodes {source : String} {read : List Structure}
    {nodes : List Node} (h : structureNodes source read = .ok nodes) :
    read.filterMap (fun part => (part.node source).toOption) = nodes := by
  induction read generalizing nodes with
  | nil =>
    cases h
    rfl
  | cons part rest ih =>
    rw [structureNodes] at h
    rcases hpart : part.node source with error | node
    · rw [hpart] at h
      cases h
    · rw [hpart] at h
      rcases hrest : structureNodes source rest with error | nodes'
      · rw [hrest] at h
        cases h
      · rw [hrest] at h
        cases h
        rw [List.filterMap_cons, hpart, ih hrest]
        rfl

end Source

theorem readNodesLeniently_of_readNodes {source : String} {nodes : List Node}
    (h : readNodes source = .ok nodes) : readNodesLeniently source = nodes := by
  unfold readNodes at h
  split at h
  · rename_i read hread
    rw [readNodesLeniently, hread]
    exact Source.filterMap_node_of_structureNodes h
  · cases h

namespace Reduction

theorem exists_of_outcome_forM_error {β : Type} {f : β → Eval Unit} {xs : List β} {s last : State}
    {stop : Stop} (h : (xs.forM f).outcome s = (.error stop, last)) :
    ∃ before x after s', xs = before ++ x :: after ∧ (before.forM f).outcome s = (.ok (), s') ∧
      (f x).outcome s' = (.error stop, last) := by
  induction xs generalizing s with
  | nil => cases h
  | cons x rest ih =>
    have hcons (ys : List β) : (x :: ys).forM f = f x >>= fun _ => ys.forM f := rfl
    rw [hcons] at h
    rcases hx : (f x).outcome s with ⟨_ | _, s'⟩
    · rw [Eval.outcome_bind_error hx] at h
      cases h
      exact ⟨[], x, rest, s, rfl, rfl, hx⟩
    · rw [Eval.outcome_bind_ok hx] at h
      obtain ⟨before, y, after, s'', rfl, hbefore, hy⟩ := ih h
      refine ⟨x :: before, y, after, s'', rfl, ?_, hy⟩
      rw [hcons, Eval.outcome_bind_ok hx, hbefore]

/-- The second pass over the document of a state settles the entries of some keys, the first ones
in the order in which the entries are settled, and stops in its last state at the next key. -/
def StopsAt (setting : Setting) (depth : ℕ) (s : State) (before : List String) (key : String)
    (stop : Stop) (last : State) : Prop :=
  ∃ after s', resolutionOrder s.document = before ++ key :: after ∧
    (before.forM fun key => settle (reduceNode setting depth) depth [.key key]).outcome s =
      (.ok (), s') ∧
    (settle (reduceNode setting depth) depth [.key key]).outcome s' = (.error stop, last)

theorem exists_stopsAt {setting : Setting} {depth : ℕ} {s last : State} {stop : Stop}
    (h : (resolveDocument setting depth).outcome s = (.error stop, last)) :
    ∃ before key, StopsAt setting depth s before key stop last := by
  rw [resolveDocument, Eval.outcome_get_bind] at h
  obtain ⟨before, key, after, s', horder, hbefore, hkey⟩ := exists_of_outcome_forM_error h
  exact ⟨before, key, after, s', horder, hbefore, hkey⟩

end Reduction

namespace Coupling

variable {C : Coupling} {inv : State → Prop} {setting : Setting} {depth : ℕ}

theorem Invariant.of_stopsAt (I : C.Invariant setting inv) {s last : State} (hs : inv s)
    {before : List String} {key : String} {stop : Stop}
    (h : StopsAt setting depth s before key stop last) :
    Table.keys last.document = Table.keys s.document ∧
      ∀ name ∈ before, ∃ v, last.document.get? name = some v ∧ v.Every C.results := by
  obtain ⟨after, s', horder, hbefore, hkey⟩ := h
  have S : C.Settling C.trees (reduceNode setting depth) fun _ => reduceNode setting depth :=
    I.concord.toLocated.settling (I.sim_reduceNode depth)
  have hdeep := Deep.refl C depth
  have hnames : ∀ name ∈ before, name ∈ Table.keys s.document := by
    intro name hmem
    rw [← mem_resolutionOrder, horder]
    exact List.mem_append_left _ hmem
  have hsettled := S.settleEntries hdeep ((I.rel_iff s s).2 ⟨rfl, hs⟩) hnames
  -- the entry that fails may still fill in others, but results it leaves as they are
  obtain ⟨t', -, hrel, hadv, -, hdone⟩ := hsettled _ _ hbefore nofun
  obtain ⟨-, hadv', -⟩ := I.toAlone.sim_iff.1 (S.settle hdeep [.key key]) s' _ _
    ((I.rel_iff s' t').1 hrel).2 hkey
  refine ⟨?_, fun name hmem => ?_⟩
  · obtain ⟨entries, hentries, hfills⟩ :=
      (Value.fills_map ..).1 (hadv.trans C.closed hadv').document
    cases hentries
    exact Value.keys_of_fills hfills
  · have hresult := hdone () rfl name hmem
    rw [← Document.slot?_key] at hresult ⊢
    exact persistent_slot [Step.key name] s' last hadv' hresult

end Coupling

namespace Session

def ignoring (session : Session) (ignoreErrors : Bool) : Session :=
  { session with options := { session.options with ignoreErrors } }

def firstPass (session : Session) (nodes : List Node) : Except Stop Unit × State :=
  (structureDocument session.setting (depthFor session.setting nodes) nodes).outcome
    { calls := session.calls }

variable (session : Session)

section
variable {nodes : List Node} {last : State} {stop : Stop}

theorem evaluate_ignoring_of_run_ok (ignoreErrors : Bool)
    (h : run session.setting session.calls nodes = (.ok (), last)) :
    ((session.ignoring ignoreErrors).evaluate nodes).1 = .ok last.document := by
  have hrun : run (session.ignoring ignoreErrors).setting (session.ignoring ignoreErrors).calls
      nodes = (.ok (), last) := h
  rw [evaluate, hrun]

theorem evaluate_ignoring_of_run_error (ignoreErrors : Bool)
    (h : run session.setting session.calls nodes = (.error stop, last)) :
    ((session.ignoring ignoreErrors).evaluate nodes).1 =
      if ignoreErrors then .ok last.document else .error stop := by
  have hrun : run (session.ignoring ignoreErrors).setting (session.ignoring ignoreErrors).calls
      nodes = (.error stop, last) := h
  rw [evaluate, hrun]
  rfl

end

theorem evaluate_ignoring_ok (nodes : List Node) :
    ∃ document, ((session.ignoring true).evaluate nodes).1 = .ok document := by
  rcases hrun : run session.setting session.calls nodes with ⟨_ | _, last⟩
  · exact ⟨last.document, session.evaluate_ignoring_of_run_error true hrun⟩
  · exact ⟨last.document, session.evaluate_ignoring_of_run_ok true hrun⟩

theorem evaluate_ignoring_of_ok {nodes : List Node} {document : Document}
    (h : ((session.ignoring false).evaluate nodes).1 = .ok document) :
    ((session.ignoring true).evaluate nodes).1 = .ok document := by
  rcases hrun : run session.setting session.calls nodes with ⟨_ | _, last⟩
  · rw [session.evaluate_ignoring_of_run_error false hrun] at h
    cases h
  · rw [session.evaluate_ignoring_of_run_ok false hrun] at h
    rw [session.evaluate_ignoring_of_run_ok true hrun, h]

theorem parse_ignoring_true (source : String) : (session.ignoring true).parse source =
    (session.ignoring true).evaluate (readNodesLeniently source) := rfl

theorem parse_ignoring_of_readNodes {source : String} {nodes : List Node}
    (h : readNodes source = .ok nodes) (ignoreErrors : Bool) :
    (session.ignoring ignoreErrors).parse source =
      (session.ignoring ignoreErrors).evaluate nodes := by
  cases ignoreErrors with
  | true => rw [parse_ignoring_true, readNodesLeniently_of_readNodes h]
  | false =>
    have hnodes : (session.ignoring false).nodes source = .ok nodes := h
    rw [parse, hnodes]

theorem parse_ignoring_of_ok {source : String} {document : Document}
    (h : ((session.ignoring false).parse source).1 = .ok document) :
    ((session.ignoring true).parse source).1 = .ok document := by
  rcases hnodes : readNodes source with error | nodes
  · have hfails : (session.ignoring false).nodes source = .error error := hnodes
    rw [parse, hfails] at h
    cases h
  · rw [session.parse_ignoring_of_readNodes hnodes] at h ⊢
    exact session.evaluate_ignoring_of_ok h

end Session

/-- Ignoring errors, one always has a document, and the same one wherever there is one without.
If there is none because the second pass stops at an entry, then one has the entries that the first
pass left, of which those that come before it hold no syntax but references that lead nowhere. -/
theorem ignoring_extends_failing (session : Session)
    (hfunctions : ∀ name f calls values v, session.functions.get? name = some f →
      (∀ u ∈ values, u.Evaluated) → f calls values = .ok v → v.Evaluated) :
    (∀ source, ∃ document, ((session.ignoring true).parse source).1 = .ok document) ∧
    (∀ nodes, ∃ document, ((session.ignoring true).evaluate nodes).1 = .ok document) ∧
    (∀ source document, ((session.ignoring false).parse source).1 = .ok document →
      ((session.ignoring true).parse source).1 = .ok document) ∧
    (∀ nodes document, ((session.ignoring false).evaluate nodes).1 = .ok document →
      ((session.ignoring true).evaluate nodes).1 = .ok document) ∧
    ∀ source nodes first stop, readNodes source = .ok nodes →
      session.firstPass nodes = (.ok (), first) →
      ((session.ignoring false).parse source).1 = .error stop →
      ∃ before key last,
        StopsAt session.setting (depthFor session.setting nodes) first before key stop last ∧
        ((session.ignoring true).parse source).1 = .ok last.document ∧
        Table.keys last.document = Table.keys first.document ∧
        ∀ name ∈ before, ∃ v, last.document.get? name = some v ∧ v.Evaluated := by
  refine ⟨fun source => session.evaluate_ignoring_ok _, session.evaluate_ignoring_ok,
    fun _ _ => session.parse_ignoring_of_ok, fun _ _ => session.evaluate_ignoring_of_ok, ?_⟩
  intro source nodes first stop hnodes hfirst hstop
  have I : (Coupling.leftovers session.calls).Invariant session.setting
      (State.Sound session.calls) := Coupling.leftovers_invariant session.calls hfunctions
  have hstart : State.Sound session.calls { calls := session.calls } :=
    ⟨Value.staged_map_nil, [], (List.append_nil _).symm, by simp⟩
  have hinv : State.Sound session.calls first := by
    have hpass := I.structureDocument (fun h htable => ⟨htable, h.calls⟩)
      (depthFor session.setting nodes) nodes (fun _ _ => trivial) hstart
    rwa [← Session.firstPass, hfirst] at hpass
  have hrun : run session.setting session.calls nodes =
      (resolveDocument session.setting (depthFor session.setting nodes)).outcome first :=
    Eval.outcome_bind_ok hfirst _
  rw [session.parse_ignoring_of_readNodes hnodes] at hstop ⊢
  rcases hsecond : run session.setting session.calls nodes with ⟨_ | _, last⟩
  · rw [session.evaluate_ignoring_of_run_error false hsecond] at hstop
    cases hstop
    rw [session.evaluate_ignoring_of_run_error true hsecond]
    rw [hrun] at hsecond
    obtain ⟨before, key, hstops⟩ := exists_stopsAt hsecond
    exact ⟨before, key, last, hstops, rfl, I.of_stopsAt hinv hstops⟩
  · rw [session.evaluate_ignoring_of_run_ok false hsecond] at hstop
    cases hstop

def unfinishedSource : String :=
  "z = fail()\nlocals \x7b\n  a = b\n\x7d\n"

def unfinishedSession : Session :=
  ⟨[("fail", fun _ _ => .error "refused")], [], [], {}, []⟩

theorem ignoring_extends_failing_unfinished :
    ∃ nodes before key stop last, readNodes unfinishedSource = .ok nodes ∧
      StopsAt unfinishedSession.setting (depthFor unfinishedSession.setting nodes)
        (unfinishedSession.firstPass nodes).2 before key stop last ∧
      ((unfinishedSession.ignoring true).parse unfinishedSource).1 = .ok last.document ∧
      Table.keys last.document = ["z", "locals"] := by
  have hfunctions : ∀ name f calls values v, unfinishedSession.functions.get? name = some f →
      (∀ u ∈ values, u.Evaluated) → f calls values = .ok v → v.Evaluated := by
    intro name f calls values v hf _ hv
    simp only [unfinishedSession, Table.get?] at hf
    split at hf
    · cases hf
      cases hv
    · cases hf
  have hnodes : ((readNodes unfinishedSource).toOption.map fun nodes =>
      (((unfinishedSession.firstPass nodes).1.toOption,
        Table.keys (unfinishedSession.firstPass nodes).2.document))) =
      some (some (), ["z", "locals"]) := by decide +kernel
  have hstop : ((unfinishedSession.ignoring false).parse unfinishedSource).1.toOption.isNone := by
    decide +kernel
  rcases hread : readNodes unfinishedSource with _ | nodes
  · rw [hread] at hnodes
    cases hnodes
  rcases hfirst : unfinishedSession.firstPass nodes with ⟨_ | _, first⟩
  · simp [hread, hfirst, Except.toOption] at hnodes
  rcases hstrict : ((unfinishedSession.ignoring false).parse unfinishedSource).1 with stop | _
  · obtain ⟨before, key, last, hstops, hdocument, hkeys, -⟩ :=
      (ignoring_extends_failing unfinishedSession hfunctions).2.2.2.2 unfinishedSource nodes first
        stop hread hfirst hstrict
    refine ⟨nodes, before, key, stop, last, rfl, by rwa [hfirst], hdocument, ?_⟩
    rw [hkeys]
    simpa [hread, hfirst, Except.toOption] using hnodes
  · rw [hstrict] at hstop
    cases hstop

end HclEval
