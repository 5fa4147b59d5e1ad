import HclEval.Proofs.Meaning.Following

/-!
Every node comes to what it means. References are followed to their ends side by side, the other
nodes are evaluated part by part, and induction on the depth puts the two together. The second pass
therefore replaces each tree by its meaning, whenever it comes to it.
-/
namespace HclEval

open Filter Reduction

variable {setting : Setting} {document : Document}

theorem State.Filled.withResolving {s : State} (hs : s.Filled setting document)
    (resolving : List String) : State.Filled setting document { s with resolving := resolving } :=
  ⟨hs.fills, hs.staged, hs.scopes⟩

abbrev Answered (setting : Setting) (document : Document) (v? w? : Option Value) (_ : State) :
    Prop :=
  v? = w? ∧ ∀ w, w? = some w → Settled setting document w

theorem answered_some {v w : Value} (h : v = w ∧ Settled setting document v) (s : State) :
    Answered setting document (some v) (some w) s := by
  refine ⟨congrArg some h.1, fun u hu => ?_⟩
  cases hu
  rw [← h.1]
  exact h.2

section
variable {reduce : Node → Eval Value} (h : Understands setting document reduce)
variable (hsetting : setting.Pure) (hshape : document.Shaped) (depth : ℕ)
include h hsetting hshape

theorem follows_finish {s : State} (hs : s.Filled setting document) {view : View}
    {cursor : Cursor} (hshows : Shows setting document s view cursor) :
    Follows setting document s (Answered setting document)
      (finish reduce setting depth cursor)
      fun i => do return some (← arrive (meaning setting document i) setting document view) := by
  have hself : ∀ tree, (Coupling.inPlace setting document).trees tree →
      (Coupling.inPlace setting document).Sim
        (fun v _ => (Coupling.inPlace setting document).becomes tree v) (reduce tree)
        fun _ => reduce tree := fun tree htree => Coupling.sim_inPlace (h tree htree)
  have hread {u w : Value} (huw : u.Fills (becoming setting document) w)
      (hw : w.Every Node.Plain) {s : State} (hs : s.Filled setting document) :
      Follows setting document s (Answered setting document)
        (do return some (← reduceValue reduce w))
        fun i => do return some (← reduceValue (meaning setting document i) u) :=
    (follows_reduceValue h huw hw hs).map fun v w s' hvw => answered_some hvw s'
  cases view <;> cases cursor <;> simp only [Shows] at hshows
  case value.value u w => exact hread hshows.1 hshows.2 hs
  case entry.slot u path =>
    obtain ⟨w, hw, huw⟩ := hshows
    refine Follows.silent (Coupling.At.settle hself Coupling.located_inPlace (.refl _ depth)
      ⟨rfl, hs⟩ hw) fun _ s' hdone hs' hadv => ?_
    obtain ⟨w', hw', hsettled⟩ := hdone
    obtain ⟨v, hv, hfills⟩ := hadv.document.at? hw
    have hvw : v = w' := Option.some.inj (hv.symm.trans hw')
    have huw' : u.Fills (becoming setting document) w' :=
      huw.trans closed_becoming (by rwa [hvw] at hfills)
    intro x s'' ha
    rw [outcome_slot? hw'] at ha
    obtain ⟨hx, rfl⟩ := Prod.mk.inj ha
    cases hx
    refine ⟨hs', .refl _, some w', ?_, answered_some ⟨rfl, hsettled⟩ s'⟩
    filter_upwards [eventually_reduceValue huw' hsettled] with i hi
    rw [arrive, Eval.outcome_bind_ok hi, Eval.outcome_pure]
  case locals.locals =>
    refine Follows.silent (Coupling.Sim.settle hself Coupling.located_inPlace (.refl _ depth)
      [.key "locals"] s s ⟨rfl, hs⟩) fun _ s' _ hs' _ => ?_
    exact hread (hshape.fills_locals hs'.fills) (every_locals hs'.staged.every) hs'
  case vars.vars => exact hread (.refl _) (hsetting.vars.mono fun _ h => h.elim) hs

theorem follows_follow {segments : List Node} (hsegments : ∀ segment ∈ segments, segment.Plain)
    {s : State} (hs : s.Filled setting document) {view? : Option View} {cursor? : Option Cursor}
    (hshows : Option.Rel (Shows setting document s) view? cursor?) :
    Follows setting document s (Answered setting document)
      (follow reduce setting depth cursor? segments)
      fun i => read (meaning setting document i) setting document view? segments := by
  have hnone {s : State} (hs : s.Filled setting document) :
      Follows setting document s (Answered setting document) (pure none) fun _ => pure none :=
    .pure hs ⟨rfl, by simp⟩
  induction segments generalizing s view? cursor? with
  | nil =>
    cases hshows with
    | none => exact hnone hs
    | some hshows => exact follows_finish h hsetting hshape depth hs hshows
  | cons segment rest ih =>
    rw [List.forall_mem_cons] at hsegments
    cases hshows with
    | none => exact hnone hs
    | some hshows =>
      have haccessor := Follows.of_sim hs (Coupling.Sim.accessor? h hsegments.1)
      refine haccessor.bind fun accessor? accessor?' s' heq hs' hadv => ?_
      rw [← heq.1]
      cases accessor? with
      | none => exact hnone hs'
      | some accessor =>
        have hnext := follows_advance h hsetting hshape depth hs' (hshows.advance hadv) accessor
        exact hnext.bind fun cursor? view? s'' hshows hs'' _ => ih hsegments.2 hs'' hshows

theorem follows_resolveSegments {segments : List Node}
    (hplain : Node.Plain (.reference segments)) {s : State} (hs : s.Filled setting document) :
    Follows setting document s (Answered setting document)
      (resolveSegments reduce setting depth segments)
      fun i => readSegments (meaning setting document i) setting document segments := by
  have hparts : ∀ segment ∈ segments, segment.Plain := Node.hereditary_plain _ hplain
  unfold resolveSegments
  split
  · exact .pure hs ⟨rfl, by simp⟩
  · rename_i name rest
    have hrest := follows_follow h hsetting hshape depth
      (fun segment hmem => hparts segment (List.mem_cons_of_mem _ hmem)) hs
      (shows_beginning? hs hplain)
    exact hrest
  · rename_i first rest hname
    have hread (i : ℕ) : readSegments (meaning setting document i) setting document
        (first :: rest) = (do
          let value ← meaning setting document i first
          read (meaning setting document i) setting document
            (if value.isUnresolved then none else some (.value value)) rest) :=
      readSegments.eq_3 _ _ _ first rest hname
    simp only [hread]
    have hfirst := Follows.of_sim hs (h first (hparts first (List.mem_cons_self ..)))
    refine hfirst.bind fun v w s' hv hs' _ => ?_
    rw [← hv.1]
    have hsettled : Settled setting document v := hv.2.2
    refine follows_follow h hsetting hshape depth
      (fun segment hmem => hparts segment (List.mem_cons_of_mem _ hmem)) hs' ?_
    split
    · exact .none
    · exact .some ⟨.refl v, hsettled.plain⟩

end

theorem means_of_eventually {tree : Node} {v : Value}
    (h : ∀ᶠ i in atTop, (stepWith (readReference (meaning setting document i) setting document)
      (answer setting) (meaning setting document i) tree).outcome {} = (.ok v, {})) :
    Means setting document tree v := by
  obtain ⟨N, hN⟩ := eventually_atTop.1 h
  refine eventually_atTop.2 ⟨N + 1, fun i hi => ?_⟩
  obtain ⟨i, rfl⟩ := Nat.exists_eq_add_of_le' (show 1 ≤ i by omega)
  exact hN i (by omega)

theorem unmet_of_readSegments {segments : List Node} (hplain : Node.Plain (.reference segments))
    (hread : ∀ᶠ i in atTop, (readSegments (meaning setting document i) setting document
      segments).outcome {} = (.ok none, {})) : Unmet setting document (.reference segments) := by
  refine ⟨hplain, rfl, means_of_eventually (hread.mono fun i hi => ?_)⟩
  simp only [stepWith, readReference, Eval.outcome_bind_ok hi, Eval.outcome_pure]

namespace Coupling

theorem sim_resolveReference {reduce : Node → Eval Value}
    (h : Understands setting document reduce) (hsetting : setting.Pure)
    (hshape : document.Shaped) (depth : ℕ) {segments : List Node}
    (hplain : Node.Plain (.reference segments)) :
    (understood setting document).Sim (understood setting document).Result
      (resolveReference reduce setting depth segments)
      fun i => readReference (meaning setting document i) setting document segments := by
  refine Follows.sim fun s hs => ?_
  have hsegments := Follows.withReference (follows_resolveSegments h hsetting hshape depth hplain
    (hs.withResolving (Node.pathText segments :: s.resolving)))
  intro v s' ha
  unfold resolveReference at ha
  rw [Eval.outcome_get_bind] at ha
  dsimp only at ha
  split at ha
  · cases (Prod.mk.inj ha).1
  split at ha
  · cases (Prod.mk.inj ha).1
  rcases hv : (Eval.withReference (Node.pathText segments)
    (resolveSegments reduce setting depth segments)).outcome s with ⟨e | v?, s''⟩
  · rw [Eval.outcome_bind_error hv] at ha
    cases (Prod.mk.inj ha).1
  · rw [Eval.outcome_bind_ok hv] at ha
    obtain ⟨hs', hadv, _, hread, rfl, hsettled⟩ := hsegments v? s'' hv
    cases v? with
    | some w =>
      cases ha
      refine ⟨hs', hadv, v, hread.mono fun i hi => ?_, rfl, hsettled v rfl⟩
      simp only [readReference, Eval.outcome_bind_ok hi, Eval.outcome_pure]
    | none =>
      cases ha
      refine ⟨hs', hadv, _, hread.mono fun i hi => ?_, rfl,
        (Value.every_node _).2 (unmet_of_readSegments hplain hread)⟩
      simp only [readReference, Eval.outcome_bind_ok hi, Eval.outcome_pure]

theorem sim_answer (hsetting : setting.Pure) (name : String) {values : List Value}
    (hvalues : ∀ v ∈ values, Settled setting document v) :
    (understood setting document).Sim (understood setting document).Result
      (invoke setting name values) fun _ => answer setting name values := by
  refine Follows.sim fun s hs => ?_
  intro v s' ha
  cases hf : setting.functions.get? name with
  | none =>
    rw [invoke_of_none hf] at ha
    obtain ⟨hv, rfl⟩ := Prod.mk.inj ha
    cases hv
    refine ⟨hs, .refl _, .null, .of_forall fun _ => ?_, rfl, by simp⟩
    unfold answer
    rw [hf]
    rfl
  | some f =>
    have hpure := hsetting.functions hf
    rw [outcome_invoke hf, hpure.history] at ha
    obtain ⟨hresult, rfl⟩ := Prod.mk.inj ha
    have hv := ok_of_functionResult hresult
    refine ⟨⟨hs.fills, hs.staged, hs.scopes⟩, ⟨⟨rfl, rfl⟩, .refl _⟩, v, .of_forall fun _ => ?_, rfl,
      hpure.conservative hv _ hvalues⟩
    unfold answer
    simp only [hf, hv, Eval.outcome_pure]

/-- Evaluation at any depth gives the meaning, if it gives anything. -/
theorem understands (hsetting : setting.Pure) (hshape : document.Shaped) (depth : ℕ) :
    Understands setting document (reduceNode setting depth) := by
  induction depth with
  | zero =>
    intro tree htree s t hst
    exact .of_not_strict (fun h => h) _
  | succ depth ih =>
    intro tree htree
    have hstep : (understood setting document).Sim (understood setting document).Result
        (reduceNode setting (depth + 1) tree)
        fun i => stepWith (readReference (meaning setting document i) setting document)
          (answer setting) (meaning setting document i) tree := by
      simp only [Reduction.reduceNode, reduceStep_eq]
      refine Sim.stepWith ih
        (fun segments hr => sim_resolveReference ih hsetting hshape depth hr)
        (fun name values hvalues => sim_answer hsetting name hvalues)
        (fun hcomprehension => ?_) htree
      have hfor := hcomprehension.self.1
      cases hfor
    rintro s _ ⟨rfl, hs⟩ r s' ha he
    obtain ⟨_, hb, ⟨rfl, hs'⟩, hadv, hbal, hsettled⟩ := hstep s {} ⟨rfl, hs⟩ r s' ha he
    cases r with
    | error e => exact (he e rfl).elim
    | ok v =>
      have hmeans : Means setting document tree v := means_of_eventually hb
      refine ⟨{}, hmeans, ⟨rfl, hs'⟩, hadv, hbal, fun w hw => ?_⟩
      cases hw
      exact ⟨hmeans, hsettled v rfl⟩

end Coupling

theorem settled_of_resolveDocument (hsetting : setting.Pure) (hshape : document.Shaped)
    (hstaged : (Value.map document).Staged Node.Plain fun _ => False) (depth : ℕ) {s s' : State}
    (hdocument : s.document = document) (hscopes : s.scopes = [])
    (ha : (resolveDocument setting depth).outcome s = (.ok (), s')) :
    (Value.map document).Fills (becoming setting document) (.map s'.document) ∧
      Settled setting document (.map s'.document) := by
  have hs : s.Filled setting document := by
    refine ⟨?_, ?_, hscopes⟩ <;> rw [hdocument]
    · exact .refl _
    · exact Value.Staged.mono (fun _ h => h) (fun _ h => h.elim) hstaged
  have hpass := Coupling.Sim.resolveDocument (.refl _ depth) Coupling.located_inPlace
    fun tree htree => Coupling.sim_inPlace (Coupling.understands hsetting hshape depth tree htree)
  obtain ⟨t', -, hrel, hadv, -, hsettled⟩ := hpass s s ⟨rfl, hs⟩ _ s' ha fun e he => by cases he
  exact ⟨hrel.2.fills, hsettled () rfl⟩

end HclEval
