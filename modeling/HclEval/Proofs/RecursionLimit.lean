import HclEval.Proofs.Depth

/-!
The limit of references in progress decides whether an evaluation goes on, and nothing else. One
that does not fail for want of room comes to the same end with more room: the same result, the same
document, the same results of lookups and the same calls in the same order.
-/
namespace HclEval

open Filter Reduction

namespace Coupling

def roomier (limit : ℕ) : Coupling where
  __ := refinement
  strict e := e ≠ .exhausted ∧ e ≠ .error (.recursionLimit limit)

end Coupling

variable {setting : Setting} {limit depth depth' : ℕ}

section
variable (hlimit : setting.maxDepth ≤ limit) (hdepth : depth ≤ depth')
include hlimit hdepth

omit hlimit in
theorem roomier_deep : (Coupling.roomier limit).Deep depth fun _ => depth' :=
  Coupling.alongside_deep (fun h => h.1 rfl) hdepth

theorem roomier_reduceNode (tree : Node) :
    (Coupling.roomier setting.maxDepth).Sim (fun _ _ => True) (reduceNode setting depth tree)
      fun _ => reduceNode { setting with maxDepth := limit } depth' tree :=
  Coupling.alongside_reduceNode (fun h => h.1 rfl) (.inr ⟨hlimit, fun h => h.2 rfl⟩) hdepth tree

theorem reduceDocument_of_limit_le {nodes : List Node} {s s' : State} {r : Except Stop Unit}
    (h : (reduceDocument setting depth nodes).outcome s = (r, s'))
    (hdeep : r ≠ .error .exhausted)
    (hroom : r ≠ .error (.error (.recursionLimit setting.maxDepth))) :
    (reduceDocument { setting with maxDepth := limit } depth' nodes).outcome s = (r, s') := by
  have hnode := roomier_reduceNode hlimit hdepth
  have hstrict {e : Stop} (he : r = .error e) :
      (Coupling.roomier setting.maxDepth).strict e :=
    ⟨fun heq => hdeep (by rw [he, heq]), fun heq => hroom (by rw [he, heq])⟩
  unfold reduceDocument at h ⊢
  rcases hfirst : (structureEach (reduceNode setting depth) nodes).outcome [] s with
    ⟨⟨first, table⟩, s₁⟩
  have hfill := Coupling.Fill.structureEach (.of_becomes fun tree _ => hnode tree) nodes
    (fun _ _ => trivial) s s [] rfl (by simp) first table s₁ hfirst
  cases first with
  | error e =>
    rw [Eval.outcome_bind_error (outcome_structureDocument hfirst)] at h
    obtain ⟨rfl, rfl⟩ := Prod.mk.inj h
    obtain ⟨_, hsame, rfl, -⟩ := hfill fun _ he => by cases he; exact hstrict rfl
    exact Eval.outcome_bind_error (outcome_structureDocument (eventually_const.1 hsame)) _
  | ok _ =>
    rw [Eval.outcome_bind_ok (outcome_structureDocument hfirst)] at h
    obtain ⟨_, hsame, rfl, -⟩ := hfill nofun
    rw [Eval.outcome_bind_ok (outcome_structureDocument (eventually_const.1 hsame))]
    have hconcord : (Coupling.roomier setting.maxDepth).Concord setting
        { setting with maxDepth := limit } :=
      Coupling.alongside_concord (.inr ⟨hlimit, fun h => h.2 rfl⟩)
    obtain ⟨_, hsame, rfl, -⟩ := Coupling.Sim.resolveDocument (roomier_deep hdepth)
      hconcord.toLocated (fun tree _ => hnode tree) _ _ rfl r s' h fun _ => hstrict
    exact eventually_const.1 hsame

end

theorem runWithin_of_le (hdepth : depth ≤ depth') {calls : List Call} {nodes : List Node}
    (hrun : (runWithin setting depth calls nodes).1 = .ok ()) :
    runWithin setting depth' calls nodes = runWithin setting depth calls nodes := by
  have h : (reduceDocument setting depth nodes).outcome { calls } =
      (.ok (), (runWithin setting depth calls nodes).2) := Prod.ext hrun rfl
  exact (reduceDocument_of_limit_le le_rfl hdepth h nofun nofun).trans (Prod.ext hrun.symm rfl)

theorem depthFor_le (hlimit : setting.maxDepth ≤ limit) (nodes : List Node) :
    depthFor setting nodes ≤ depthFor { setting with maxDepth := limit } nodes :=
  Nat.mul_le_mul_right _ (by simpa using hlimit)

/-- Raising the limit of references in progress changes nothing for an evaluation that succeeds, or
that fails for another reason than this limit: result, document, results of lookups and calls stay
what they are. -/
theorem raising_limit_keeps_outcome (setting : Setting) {limit : ℕ}
    (hlimit : setting.maxDepth ≤ limit) (nodes : List Node) :
    (∀ {depth depth' : ℕ} {s s' : State} {r : Except Stop Unit}, depth ≤ depth' →
      r ≠ .error .exhausted → r ≠ .error (.error (.recursionLimit setting.maxDepth)) →
        (reduceDocument setting depth nodes).outcome s = (r, s') →
          (reduceDocument { setting with maxDepth := limit } depth' nodes).outcome s = (r, s')) ∧
      ∀ calls s, run setting calls nodes = (.ok (), s) →
        run { setting with maxDepth := limit } calls nodes = (.ok (), s) :=
  ⟨fun hdepth hdeep hroom h => reduceDocument_of_limit_le hlimit hdepth h hdeep hroom,
    fun _ _ h => reduceDocument_of_limit_le hlimit (depthFor_le hlimit nodes) h nofun nofun⟩

def chainNodes : List Node :=
  [.block ["locals"]
      [.named "a" [.reference [.segment "local", .segment "b"]] none,
        .named "b" [.reference [.segment "data", .segment "echo", .segment "n"]] none] none,
    .block ["data", "echo", "n"] [] none]

def chainSetting (limit : ℕ) : Setting :=
  ⟨[], [("echo", fun _ properties => .ok properties)], [], limit⟩

theorem raising_limit_keeps_outcome_chain :
    (run (chainSetting 1) [] chainNodes).1 = .error (.error (.recursionLimit 1)) ∧
      (run (chainSetting 2) [] chainNodes).1 = .ok () ∧
        (run (chainSetting 2) [] chainNodes).2.calls.length = 1 ∧
          run (chainSetting 64) [] chainNodes = run (chainSetting 2) [] chainNodes := by
  have hrun : (run (chainSetting 2) [] chainNodes).1 = .ok () := by decide +kernel
  refine ⟨by decide +kernel, hrun, by decide +kernel, ?_⟩
  have hsplit : run (chainSetting 2) [] chainNodes =
      (.ok (), (run (chainSetting 2) [] chainNodes).2) := Prod.ext hrun rfl
  rw [hsplit]
  exact (raising_limit_keeps_outcome (chainSetting 2) (by decide) chainNodes).2 [] _ hsplit

end HclEval
