import HclEval.Proofs.Refinement

/-!
The stacks of an evaluation: the scopes that are open and the references that are being resolved.
Both are entered only around a part of the evaluation and left however that part ends, so after any
evaluation they are what they were before, and after a whole run they are empty.
-/
namespace HclEval

open Reduction

/-- Wherever it starts and however it ends, the scopes and the references in progress are the same
afterwards. -/
def Eval.KeepsStacks {α : Type} (a : Eval α) : Prop :=
  ∀ s : State, s.Balanced (a.outcome s).2

def Reduction.Build.KeepsStacks {α : Type} (a : Build α) : Prop :=
  ∀ (table : Table Value) (s : State), s.Balanced (a.outcome table s).2

theorem Eval.KeepsStacks.of_sim (setting : Setting) {α : Type} {post : α → State → Prop}
    {a : Eval α} (h : Coupling.refinement.Sim post a fun _ => a) : a.KeepsStacks :=
  Coupling.balanced_of_sim (Coupling.refinement_invariant setting) h

theorem Reduction.Build.KeepsStacks.of_fill {α : Type} {post : α → Prop} {a : Build α}
    (h : Coupling.refinement.Fill post a fun _ => a) : a.KeepsStacks := by
  intro table s
  have hstaged : (Value.map table).Staged Coupling.refinement.trees Coupling.refinement.results :=
    (Value.every_true _).staged fun _ h => h
  rcases ha : a.outcome table s with ⟨⟨r, table'⟩, s'⟩
  obtain ⟨_, -, -, hadvance, -⟩ := h s s table rfl hstaged r table' s' ha fun _ _ => trivial
  exact hadvance.toBalanced

namespace Reduction

variable (setting : Setting) (depth : ℕ)

theorem keepsStacks_reduceNode (node : Node) : (reduceNode setting depth node).KeepsStacks :=
  .of_sim setting (refinement_reduceNode setting depth node)

section Expressions

theorem keepsStacks_operand (nodes : List Node) :
    (operand (reduceNode setting depth) nodes).KeepsStacks :=
  .of_sim setting (.operand (fun tree _ => refinement_reduceNode_result setting depth tree)
    fun _ _ => trivial)

theorem keepsStacks_evaluate (nodes : List Node) :
    (evaluate (reduceNode setting depth) nodes).KeepsStacks :=
  .of_sim setting (.evaluate (fun tree _ => refinement_reduceNode_result setting depth tree)
    fun _ _ => trivial)

theorem keepsStacks_callFunction (name : String) (nodes : List Node) (spread : Bool) :
    (callFunction (reduceNode setting depth) setting name nodes spread).KeepsStacks :=
  .of_sim setting (.callWith (fun tree _ => refinement_reduceNode_result setting depth tree)
    (Coupling.refinement_invariant setting).concord.invoke (fun _ _ => trivial) name spread)

theorem keepsStacks_comprehend (keyVariable : Option String) (valueVariable : String)
    (collection : Node) (key : Option Node) (value : Node) (condition : Option Node)
    (grouping : Bool) :
    (comprehend (reduceNode setting depth) keyVariable valueVariable collection key value condition
      grouping).KeepsStacks :=
  .of_sim setting (.comprehend (fun tree _ => refinement_reduceNode_result setting depth tree)
    (Coupling.refinement_invariant setting).opens trivial (fun _ _ => trivial) trivial
    (fun _ _ => trivial) keyVariable valueVariable grouping)

end Expressions

section References

theorem keepsStacks_reduceValue (v : Value) :
    (reduceValue (reduceNode setting depth) v).KeepsStacks :=
  balanced_reduceValue setting depth v

theorem keepsStacks_forceSlot (path : Path) :
    (forceSlot (reduceNode setting depth) path).KeepsStacks :=
  .of_sim setting (.forceSlot (fun tree _ => refinement_reduceNode setting depth tree)
    (Coupling.refinement_invariant setting).concord.toLocated path)

theorem keepsStacks_settle (depth' : ℕ) (path : Path) :
    (settle (reduceNode setting depth) depth' path).KeepsStacks :=
  .of_sim setting (.settle (fun tree _ => refinement_reduceNode setting depth tree)
    (Coupling.refinement_invariant setting).concord.toLocated (.refl _ depth') path)

theorem keepsStacks_resolveReference (depth' : ℕ) (segments : List Node) :
    (resolveReference (reduceNode setting depth) setting depth' segments).KeepsStacks :=
  .of_sim setting (.resolveReference (fun tree _ => refinement_reduceNode setting depth tree)
    (Coupling.refinement_invariant setting).concord.toAgreement (.refl _ depth') trivial)

end References

section Passes

theorem keepsStacks_structureValue (node : Node) :
    (structureValue (reduceNode setting depth) node).KeepsStacks :=
  .of_sim setting
    (.structureValue (.of_becomes fun tree _ => refinement_reduceNode setting depth tree) node
      trivial)

theorem keepsStacks_structureEach (nodes : List Node) :
    (structureEach (reduceNode setting depth) nodes).KeepsStacks :=
  .of_fill (.structureEach (.of_becomes fun tree _ => refinement_reduceNode setting depth tree)
    nodes fun _ _ => trivial)

theorem keepsStacks_structureDocument (nodes : List Node) :
    (structureDocument setting depth nodes).KeepsStacks := by
  intro s
  rcases h : (structureEach (reduceNode setting depth) nodes).outcome [] s with ⟨⟨r, table⟩, s'⟩
  have hbalanced := keepsStacks_structureEach setting depth nodes [] s
  rw [h] at hbalanced
  rw [outcome_structureDocument h]
  exact ⟨hbalanced.scopes, hbalanced.resolving⟩

theorem keepsStacks_resolveDocument : (resolveDocument setting depth).KeepsStacks :=
  .of_sim setting (.resolveDocument (.refl _ depth)
    (Coupling.refinement_invariant setting).concord.toLocated
    fun tree _ => refinement_reduceNode setting depth tree)

theorem keepsStacks_reduceDocument (nodes : List Node) :
    (reduceDocument setting depth nodes).KeepsStacks := by
  intro s
  have hfirst := keepsStacks_structureDocument setting depth nodes s
  unfold reduceDocument
  rcases h : (structureDocument setting depth nodes).outcome s with ⟨_ | _, s'⟩ <;> rw [h] at hfirst
  · rw [Eval.outcome_bind_error h]
    exact hfirst
  · rw [Eval.outcome_bind_ok h]
    exact hfirst.trans (keepsStacks_resolveDocument setting depth s')

theorem stacks_empty_after_run (calls : List Call) (nodes : List Node) :
    (runWithin setting depth calls nodes).2.scopes = [] ∧
      (runWithin setting depth calls nodes).2.resolving = [] :=
  have h := keepsStacks_reduceDocument setting depth nodes { calls }
  ⟨h.scopes, h.resolving⟩

end Passes

end Reduction

/-- Whatever is evaluated, from whatever state and whether it ends in a value or an error, the
scopes and the references in progress are afterwards exactly what they were before: for nodes and
expressions, calls and `for` expressions, references and the locations and values they lead to, and
for the values and tables of the first pass. -/
theorem evaluation_keeps_stacks (setting : Setting) (depth : ℕ) :
    (∀ node, (reduceNode setting depth node).KeepsStacks) ∧
    (∀ nodes, (evaluate (reduceNode setting depth) nodes).KeepsStacks) ∧
    (∀ nodes, (operand (reduceNode setting depth) nodes).KeepsStacks) ∧
    (∀ name nodes spread,
      (callFunction (reduceNode setting depth) setting name nodes spread).KeepsStacks) ∧
    (∀ keyVariable valueVariable collection key value condition grouping,
      (comprehend (reduceNode setting depth) keyVariable valueVariable collection key value
        condition grouping).KeepsStacks) ∧
    (∀ depth' segments,
      (resolveReference (reduceNode setting depth) setting depth' segments).KeepsStacks) ∧
    (∀ path, (forceSlot (reduceNode setting depth) path).KeepsStacks) ∧
    (∀ depth' path, (settle (reduceNode setting depth) depth' path).KeepsStacks) ∧
    (∀ v, (reduceValue (reduceNode setting depth) v).KeepsStacks) ∧
    (∀ node, (structureValue (reduceNode setting depth) node).KeepsStacks) ∧
    ∀ nodes, (structureEach (reduceNode setting depth) nodes).KeepsStacks :=
  ⟨keepsStacks_reduceNode setting depth, keepsStacks_evaluate setting depth,
    keepsStacks_operand setting depth, keepsStacks_callFunction setting depth,
    keepsStacks_comprehend setting depth, keepsStacks_resolveReference setting depth,
    keepsStacks_forceSlot setting depth, keepsStacks_settle setting depth,
    keepsStacks_reduceValue setting depth, keepsStacks_structureValue setting depth,
    keepsStacks_structureEach setting depth⟩

end HclEval
