import HclEval.Proofs.Coupling.Expression
import HclEval.Proofs.Coupling.Reference
import HclEval.Proofs.Coupling.Structure
import HclEval.Reduction.Basic

/-!
Whole evaluations side by side: by induction on the depth all nodes are coupled, and with them
both passes. An evaluation may also be coupled with itself, which gives what holds of it alone.
-/
namespace HclEval

open Filter Reduction

namespace Reduction

def stepWith (reference : List Node → Eval Value)
    (invoke : String → List Value → Eval Value) (reduce : Node → Eval Value) :
    Node → Eval Value
  | .named _ children _ | .keyed _ children _ | .group children | .interpolation children =>
    evaluate reduce children
  | .block names children position => do
    reduceValue reduce (← structureValue reduce (.block names children position))
  | .map entries => do
    reduceValue reduce (.map (← (structureEach reduce entries).table))
  | .array elements =>
    if elements.isEmpty then pure .null else return .list (← elements.mapM reduce)
  | .literal kind raw => Eval.ofExcept (literalValue kind raw)
  | .type marker => pure (.type marker)
  | .reference segments => reference segments
  | .call name arguments spread => callWith invoke reduce name arguments spread
  | .comprehension keyVariable valueVariable collection key value condition grouping =>
    comprehend reduce keyVariable valueVariable collection key value condition grouping
  | .operator _ | .segment _ => pure .null

theorem mem_resolutionOrder {document : Document} {key : String} :
    key ∈ resolutionOrder document ↔ key ∈ Table.keys document := by
  simp only [resolutionOrder, List.mem_append, List.mem_filter, Table.contains_iff_mem_keys]
  constructor
  · rintro (h | h)
    · exact h.2
    · exact h.1
  · intro h
    by_cases hname : key ∈ namespaces
    · exact .inl ⟨hname, h⟩
    · exact .inr ⟨h, by simpa using hname⟩

theorem reduceStep_eq (setting : Setting) (reduce : Node → Eval Value) (depth : ℕ) :
    reduceStep setting reduce depth =
      stepWith (resolveReference reduce setting depth) (invoke setting) reduce := by
  funext node
  cases node <;> rfl

def nodeWith (setting : Setting)
    (reference : (Node → Eval Value) → (depth : ℕ) → List Node → Eval Value) :
    (depth : ℕ) → Node → Eval Value
  | 0, _ => throw .exhausted
  | depth + 1, node =>
    stepWith (reference (nodeWith setting reference depth) depth) (invoke setting)
      (nodeWith setting reference depth) node

def passWith (reduce : Node → Eval Value) (depth : ℕ) : Eval Unit := do
  (resolutionOrder (← get).document).forM fun key => settle reduce depth [.key key]

theorem resolveDocument_eq (setting : Setting) (depth : ℕ) :
    resolveDocument setting depth = passWith (reduceNode setting depth) depth := rfl

theorem outcome_structureDocument {setting : Setting} {depth : ℕ} {nodes : List Node}
    {s s' : State} {r : Except Stop Unit} {table : Table Value}
    (h : (structureEach (reduceNode setting depth) nodes).outcome [] s = ((r, table), s')) :
    (structureDocument setting depth nodes).outcome s = (r, { s' with document := table }) := by
  have hpass : (structureDocument setting depth nodes).outcome s =
      let first := (structureEach (reduceNode setting depth) nodes).outcome [] s
      (first.1.1, { first.2 with document := first.1.2 }) := rfl
  rw [hpass, h]

/-- A run that succeeds goes through both passes. -/
theorem exists_passes_of_run {setting : Setting} {depth : ℕ} {calls : List Call}
    {nodes : List Node} (hrun : (runWithin setting depth calls nodes).1 = .ok ()) :
    ∃ table s,
      (structureEach (reduceNode setting depth) nodes).outcome [] { calls } = ((.ok (), table), s) ∧
        (resolveDocument setting depth).outcome { s with document := table } =
          (.ok (), (runWithin setting depth calls nodes).2) := by
  have hreduce : (reduceDocument setting depth nodes).outcome { calls } =
      (.ok (), (runWithin setting depth calls nodes).2) := Prod.ext hrun rfl
  unfold reduceDocument at hreduce
  rcases hbuild : (structureEach (reduceNode setting depth) nodes).outcome [] { calls } with
    ⟨⟨e | _, table⟩, s⟩
  · rw [Eval.outcome_bind_error (outcome_structureDocument hbuild)] at hreduce
    cases hreduce
  · rw [Eval.outcome_bind_ok (outcome_structureDocument hbuild)] at hreduce
    exact ⟨table, s, rfl, hreduce⟩

end Reduction

namespace Coupling

variable {C : Coupling}

section
variable {reduce : Node → Eval Value} {other : ℕ → Node → Eval Value}
variable {reference : List Node → Eval Value} {reference' : ℕ → List Node → Eval Value}
variable {call : String → List Value → Eval Value} {call' : ℕ → String → List Value → Eval Value}

protected theorem Sim.stepWith
    (h : ∀ tree, C.trees tree →
      C.Sim (fun v _ => C.becomes tree v) (reduce tree) fun i => other i tree)
    (hreference : ∀ segments, C.trees (.reference segments) →
      C.Sim C.Result (reference segments) fun i => reference' i segments)
    (hcall : ∀ name values, (∀ v ∈ values, v.Every C.results) →
      C.Sim C.Result (call name values) fun i => call' i name values)
    (hscope : ∀ {keyVariable valueVariable collection key value condition grouping},
      C.trees (.comprehension keyVariable valueVariable collection key value condition grouping) →
        C.Scoped)
    {node : Node} (hn : C.trees node) :
    C.Sim C.Result (stepWith reference call reduce node)
      fun i => stepWith (reference' i) (call' i) (other i) node := by
  have hresult : ∀ tree, C.trees tree → C.Sim C.Result (reduce tree) fun i => other i tree :=
    fun tree htree => (h tree htree).mono fun v _ => C.every_of_becomes tree v
  have E : C.Early reduce other := .of_becomes h
  have hparts := C.hereditary node hn
  cases node with
  | named _ children _ => exact Sim.evaluate hresult hparts
  | keyed _ children _ =>
    exact Sim.evaluate hresult fun child hmem => hparts child (List.mem_cons_of_mem _ hmem)
  | group children => exact Sim.evaluate hresult hparts
  | interpolation children => exact Sim.evaluate hresult hparts
  | block names children position =>
    refine (Sim.structureValue E _ hn).bind fun v s t hv hst => ?_
    exact Sim.reduceValue h (Value.Staged.every hv) s t hst
  | map entries =>
    refine (Sim.table (Fill.structureEach E entries hparts)).bind fun table s t htable hst => ?_
    exact Sim.reduceValue h htable.every s t hst
  | array elements =>
    simp only [stepWith]
    split
    · exact .pure (by simp)
    · exact (Sim.mapM fun element hmem => hresult element (hparts element hmem)).map
        fun vs _ hvs => (Value.every_list vs).2 hvs
  | literal kind raw => exact Sim.literalValue kind raw
  | type marker => exact .pure (by simp)
  | reference segments => exact hreference segments hn
  | call name arguments spread => exact Sim.callWith hresult hcall hparts name spread
  | comprehension keyVariable valueVariable collection key value condition grouping =>
    simp only [Node.parts, List.forall_mem_cons, List.mem_append, Option.mem_toList] at hparts
    exact Sim.comprehend hresult (hscope hn) hparts.1 (fun node hmem => hparts.2.2 node (.inl hmem))
      hparts.2.1 (fun node hmem => hparts.2.2 node (.inr hmem)) keyVariable valueVariable grouping
  | operator _ => exact .pure (by simp)
  | segment _ => exact .pure (by simp)

end

/-- What makes two settings agree on all nodes that are evaluated. -/
structure Concord (C : Coupling) (setting setting' : Setting) : Prop
    extends C.Agreement setting setting' where
  becomes_of_every : ∀ {tree v}, C.trees tree → v.Every C.results → C.becomes tree v
  invoke : ∀ name values, (∀ v ∈ values, v.Every C.results) →
    C.Sim C.Result (invoke setting name values) fun _ => invoke setting' name values
  scope : ∀ {keyVariable valueVariable collection key value condition grouping},
    C.trees (.comprehension keyVariable valueVariable collection key value condition grouping) →
      C.Scoped

section
variable {setting setting' : Setting} {depth : ℕ} {depth' : ℕ → ℕ} (hd : C.Deep depth depth')
include hd

protected theorem Sim.reduceNode (A : C.Concord setting setting') {tree : Node}
    (htree : C.trees tree) :
    C.Sim (fun v _ => C.becomes tree v) (reduceNode setting depth tree)
      fun i => reduceNode setting' (depth' i) tree := by
  induction depth generalizing depth' tree with
  | zero =>
    intro s t hst
    exact .exhausted hst hd fun i hi => by rw [hi]; rfl
  | succ depth ih =>
    have hstep : C.Sim C.Result (reduceNode setting (depth + 1) tree)
        fun i => reduceNode setting' (depth' i - 1 + 1) tree := by
      simp only [Reduction.reduceNode, reduceStep_eq]
      exact Sim.stepWith (fun tree htree => ih hd.pred.1 htree)
        (fun segments hr => Sim.resolveReference (fun tree htree => ih hd.pred.1 htree)
          A.toAgreement hd.pred.1 hr) A.invoke A.scope htree
    intro s t hst
    have hcongr : C.At s t C.Result (reduceNode setting (depth + 1) tree)
        fun i => reduceNode setting' (depth' i) tree :=
      (hstep s t hst).congr (hd.pred.2.mono fun i hi => by rw [← hi])
    exact hcongr.mono fun v _ hv => A.becomes_of_every htree hv

theorem Settling.settleEntries {reduce : Node → Eval Value} {other : ℕ → Node → Eval Value}
    {stored : Node → Prop} (S : C.Settling stored reduce other) {s t : State} (hst : C.rel s t)
    {names : List String} (hnames : ∀ name ∈ names, name ∈ Table.keys s.document) :
    C.At s t
      (fun _ s' => ∀ name ∈ names, ∃ v, s'.document.get? name = some v ∧ v.Every C.results)
      (names.forM fun name => Reduction.settle reduce depth [.key name])
      fun i => names.forM fun name => Reduction.settle (other i) (depth' i) [.key name] := by
  simp only [← Document.slot?_key]
  refine At.forM (fun name => persistent_exists [Step.key name])
    (fun name => persistent_slot [Step.key name])
    (fun name _ s t hst hex => S.settleAt hd hst hex.choose_spec) hst fun name hmem => ?_
  obtain ⟨e, he, rfl⟩ := List.mem_map.1 (hnames name hmem)
  rw [Document.slot?_key]
  exact Table.exists_get?_of_mem he

theorem Settling.passWith {reduce : Node → Eval Value} {other : ℕ → Node → Eval Value}
    {stored : Node → Prop} (S : C.Settling stored reduce other) :
    C.Sim (fun _ s => (Value.map s.document).Every C.results) (passWith reduce depth)
      fun i => passWith (other i) (depth' i) := by
  intro s t hst
  refine At.get_bind ?_
  rw [S.document_eq hst]
  have hkeys := S.settleEntries hd hst fun name => mem_resolutionOrder.1
  refine hkeys.reached.mono fun _ s' ⟨hdone, hadv, t', hst'⟩ => ?_
  obtain ⟨document, hdocument, hfills⟩ := (Value.fills_map ..).1 hadv.document
  obtain rfl : s'.document = document := by simpa using hdocument
  refine Value.every_of_staged (S.document hst') fun key v hv => ?_
  have hmem : key ∈ resolutionOrder s.document := by
    rw [mem_resolutionOrder, ← Value.keys_of_fills hfills]
    exact Table.mem_keys_of_get? hv
  obtain ⟨w, hw, hevery⟩ := hdone key hmem
  rw [hv] at hw
  cases hw
  exact hevery

theorem Settling.resolveDocument {stored : Node → Prop}
    (S : C.Settling stored (reduceNode setting depth) fun i => reduceNode setting' (depth' i)) :
    C.Sim (fun _ s => (Value.map s.document).Every C.results) (resolveDocument setting depth)
      fun i => resolveDocument setting' (depth' i) := by
  simp only [resolveDocument_eq]
  exact S.passWith hd

protected theorem Sim.resolveDocument (A : C.Located)
    (h : ∀ tree, C.trees tree → C.Sim (fun v _ => C.becomes tree v)
      (reduceNode setting depth tree) fun i => reduceNode setting' (depth' i) tree) :
    C.Sim (fun _ s => (Value.map s.document).Every C.results) (resolveDocument setting depth)
      fun i => resolveDocument setting' (depth' i) :=
  (A.settling h).resolveDocument hd

end

end Coupling
end HclEval
