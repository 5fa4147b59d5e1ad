import HclEval.Proofs.Coupling.Invariant

/-!
The second pass only fills in. A value refines another if it has the same shape and the same
leaves, except where the other still holds a tree. Whatever is evaluated, from whatever state and
however it ends, the document afterwards refines the document before.
-/
namespace HclEval

open Reduction

/-- The second value is the first with some of its trees replaced, by values of any kind. -/
abbrev Value.RefinedBy (v w : Value) : Prop := v.Fills (fun _ _ => True) w

/-- Wherever it starts and however it ends, an evaluation refines the document. -/
def Eval.Refining {α : Type} (a : Eval α) : Prop :=
  ∀ s, (Value.map s.document).RefinedBy (.map (a.outcome s).2.document)

namespace Coupling

def refinement : Coupling where
  rel s t := s = t
  strict _ := True
  trees _ := True
  results _ := True
  becomes _ _ := True
  hereditary := Node.hereditary_true
  trees_of_results := fun _ h => h
  every_of_becomes := fun _ v _ => Value.every_true v
  closed := fun _ _ _ _ _ => trivial

theorem refinement_invariant (setting : Setting) :
    refinement.Invariant setting fun _ => True where
  rel_iff s t := by simp [refinement]
  strict _ := trivial
  vars := Value.every_true _
  unresolved _ := trivial
  becomes_of_every _ _ := trivial
  results _ _ _ := Value.every_true _
  consulted _ _ _ := Value.every_true _
  document _ := (Value.every_true _).staged fun _ h => h
  cache _ := Value.every_true _
  scopes _ _ _ := Value.every_true _
  put _ _ _ _ _ := trivial
  call _ _ _ _ := trivial
  lookup _ _ _ _ _ _ _ := trivial
  enter _ _ _ := trivial
  leave _ _ := trivial
  enterScope _ _ := trivial
  leaveScope _ _ := trivial

theorem refining_of_sim {setting : Setting} {α : Type} {post : α → State → Prop} {a : Eval α}
    (I : refinement.Invariant setting fun _ => True) (h : refinement.Sim post a fun _ => a) :
    a.Refining := fun s => (I.sim_iff.1 h s _ _ trivial rfl).2.1.document

theorem balanced_of_sim {setting : Setting} {α : Type} {post : α → State → Prop} {a : Eval α}
    (I : refinement.Invariant setting fun _ => True) (h : refinement.Sim post a fun _ => a)
    (s : State) : s.Balanced (a.outcome s).2 := (I.sim_iff.1 h s _ _ trivial rfl).2.1.toBalanced

end Coupling

namespace Reduction

variable (setting : Setting) (depth : ℕ)

theorem refinement_reduceNode (node : Node) :
    Coupling.refinement.Sim (fun v _ => Coupling.refinement.becomes node v)
      (reduceNode setting depth node) fun _ => reduceNode setting depth node :=
  .reduceNode (.refl _ depth) (Coupling.refinement_invariant setting).concord trivial

theorem refinement_reduceNode_result (node : Node) :
    Coupling.refinement.Sim Coupling.refinement.Result (reduceNode setting depth node)
      fun _ => reduceNode setting depth node :=
  (refinement_reduceNode setting depth node).mono fun v _ _ => Value.every_true v

theorem balanced_reduceNode {node : Node} {r : Except Stop Value} {s s' : State}
    (h : (reduceNode setting depth node).outcome s = (r, s')) : s.Balanced s' := by
  have hbalanced := Coupling.balanced_of_sim (Coupling.refinement_invariant setting)
    (refinement_reduceNode setting depth node) s
  rwa [h] at hbalanced

theorem balanced_reduceValue (v : Value) (s : State) :
    s.Balanced ((reduceValue (reduceNode setting depth) v).outcome s).2 :=
  Coupling.balanced_of_sim (Coupling.refinement_invariant setting)
    (.reduceValue (fun tree _ => refinement_reduceNode setting depth tree) (Value.every_true v)) s

end Reduction

theorem Eval.Refining.after {α : Type} {b : Eval α} (hb : b.Refining) (a : Eval Unit)
    (s : State) : (Value.map (a.outcome s).2.document).RefinedBy
      (.map ((a >>= fun _ => b).outcome s).2.document) := by
  rcases ha : a.outcome s with ⟨_ | _, s'⟩
  · rw [Eval.outcome_bind_error ha]
    exact .refl _
  · rw [Eval.outcome_bind_ok ha]
    exact hb s'

/-- The second pass only fills in the document, and so does every evaluation on the way: neither
keys nor their order nor the lengths of lists ever change. -/
theorem evaluation_refines_document (setting : Setting) (depth : ℕ) :
    (resolveDocument setting depth).Refining ∧
    (∀ depth' path, (settle (reduceNode setting depth) depth' path).Refining) ∧
    (∀ path, (forceSlot (reduceNode setting depth) path).Refining) ∧
    (∀ depth' segments,
      (resolveReference (reduceNode setting depth) setting depth' segments).Refining) ∧
    (∀ node, (reduceNode setting depth node).Refining) ∧
    (∀ nodes, (evaluate (reduceNode setting depth) nodes).Refining) ∧
    (∀ keyVariable valueVariable collection key value condition grouping,
      (comprehend (reduceNode setting depth) keyVariable valueVariable collection key value
        condition grouping).Refining) ∧
    (∀ v, (reduceValue (reduceNode setting depth) v).Refining) ∧
    ∀ calls nodes,
      let first := ((structureDocument setting depth nodes).outcome { calls }).2.document
      let last := (runWithin setting depth calls nodes).2.document
      (Value.map first).RefinedBy (.map last) ∧ Table.keys last = Table.keys first := by
  have I := Coupling.refinement_invariant setting
  have C := I.concord
  have hnode : ∀ tree, Coupling.refinement.trees tree → Coupling.refinement.Sim
      (fun v _ => Coupling.refinement.becomes tree v) (reduceNode setting depth tree)
      fun _ => reduceNode setting depth tree :=
    fun tree htree => .reduceNode (.refl _ depth) C htree
  have hresult : ∀ tree, Coupling.refinement.trees tree → Coupling.refinement.Sim
      Coupling.refinement.Result (reduceNode setting depth tree)
      fun _ => reduceNode setting depth tree :=
    fun tree htree => (hnode tree htree).mono fun v _ _ => Value.every_true v
  have hdocument : (resolveDocument setting depth).Refining :=
    Coupling.refining_of_sim I (.resolveDocument (.refl _ depth) C.toLocated hnode)
  refine ⟨hdocument, fun depth' path => ?_, fun path => ?_, fun depth' segments => ?_,
    fun node => ?_, fun nodes => ?_,
    fun keyVariable valueVariable collection key value condition grouping => ?_, fun v => ?_,
    fun calls nodes => ?_⟩
  · exact Coupling.refining_of_sim I (.settle hnode C.toLocated (.refl _ depth') path)
  · exact Coupling.refining_of_sim I (.forceSlot hnode C.toLocated path)
  · exact Coupling.refining_of_sim I
      (.resolveReference hnode C.toAgreement (.refl _ depth') trivial)
  · exact Coupling.refining_of_sim I (hnode node trivial)
  · exact Coupling.refining_of_sim I (.evaluate hresult fun _ _ => trivial)
  · exact Coupling.refining_of_sim I (.comprehend hresult I.opens trivial (fun _ _ => trivial)
      trivial (fun _ _ => trivial) keyVariable valueVariable grouping)
  · exact Coupling.refining_of_sim I (.reduceValue hnode (Value.every_true v))
  · have hfills := Eval.Refining.after hdocument (structureDocument setting depth nodes) { calls }
    exact ⟨hfills, Value.keys_of_fills (Value.fills_map_map.1 hfills)⟩

end HclEval
