import HclEval.Proofs.ReferenceValues

/-!
What a variable is read as. Where `locals` and `variable` are made of blocks, filling in the
document moves no default, so all references to a variable find what the final document shows of
it, whether it had been evaluated by then or not. Where a variable is defined as a value instead,
it is looked at before it is evaluated, and what it is taken for may change.
-/
namespace HclEval

open Filter Reduction

def readsVariable (name : String) : List Node → Bool
  | [.segment "var", .segment name'] => name' == name
  | _ => false

theorem eq_of_readsVariable {name : String} {segments : List Node}
    (h : readsVariable name segments = true) : segments = [.segment "var", .segment name] := by
  unfold readsVariable at h
  split at h
  · rw [beq_iff_eq] at h
    rw [h]
  · cases h

namespace Reduction

def resolveAccepted (setting : Setting) (name : String) (accept : Value → Bool)
    (reduce : Node → Eval Value) (depth : ℕ) (segments : List Node) : Eval Value := do
  let value ← resolveReference reduce setting depth segments
  if readsVariable name segments && !accept value then throw .exhausted else pure value

def acceptedPass (setting : Setting) (name : String) (accept : Value → Bool) (depth : ℕ) :
    Eval Unit :=
  passWith (nodeWith setting (resolveAccepted setting name accept) depth) depth

end Reduction

/-- In a second pass the variable is never read as anything but a value: the pass ends as it does
even if it fails as soon as an evaluation of the variable gives something else. -/
def ReadsOnly (setting : Setting) (depth : ℕ) (name : String) (s : State) (v : Value) : Prop :=
  ∀ accept : Value → Bool, accept v = true →
    (acceptedPass setting name accept depth).outcome s = (resolveDocument setting depth).outcome s

/-- What a document shows of a variable: what it was set to, or the default of its block. -/
def Document.variableValue? (setting : Setting) (document : Document) (name : String) :
    Option Value :=
  match variableAt? setting document (.name name) with
  | some (.value v) => some v
  | some (.slot path) => document.slot? path
  | _ => none

variable {setting : Setting} {document final : Document}

theorem cursor_of_variableAt? {name : String} {cursor : Cursor}
    (h : variableAt? setting document (.name name) = some cursor) :
    (∃ v, cursor = .value v) ∨
      ∃ path, cursor = .slot path ∧ variableDefault? document name = some (.slot path) := by
  simp only [variableAt?] at h
  split at h
  · cases h
    exact .inl ⟨_, rfl⟩
  · obtain rfl | ⟨path, rfl⟩ := variableDefault?_cases h
    · exact .inl ⟨_, rfl⟩
    · exact .inr ⟨path, rfl, h⟩

section
variable (hsetting : setting.Pure) (hshape : document.Shaped)
  (hfills : (Value.map document).Fills (becoming setting document) (.map final))
  (hsettled : Settled setting document (.map final))
include hsetting hshape hfills hsettled

theorem eventually_readSegments_var (name : String) :
    ∀ᶠ i in atTop, (readSegments (meaning setting document i) setting document
      [.segment "var", .segment name]).outcome {} =
        (.ok (final.variableValue? setting name), {}) := by
  have hread (i : ℕ) : readSegments (meaning setting document i) setting document
      [.segment "var", .segment name] = read (meaning setting document i) setting document
        (variableView? setting document (.name name)) [] := rfl
  have harrive {view : View} {v w : Value} (hview : ∀ i, arrive (meaning setting document i) setting
      document view = reduceValue (meaning setting document i) v)
      (hvw : v.Fills (becoming setting document) w) (hw : Settled setting document w) :
      ∀ᶠ i in atTop, (read (meaning setting document i) setting document (some view) []).outcome
        {} = (.ok (some w), {}) := by
    filter_upwards [eventually_reduceValue hvw hw] with i hi
    simp only [Reduction.read, hview, Eval.outcome_bind_ok hi, Eval.outcome_pure]
  have hshown : variableAt? setting final (.name name) =
      variableAt? setting document (.name name) := by
    simp only [variableAt?, hshape.variableDefault?_eq hfills]
  simp only [hread, variableView?, Document.variableValue?, hshown]
  cases hcursor : variableAt? setting document (.name name) with
  | none => exact .of_forall fun _ => rfl
  | some cursor =>
    rcases cursor_of_variableAt? hcursor with ⟨v, rfl⟩ | ⟨path, rfl, hdefault⟩
    · have hv : Settled setting document v :=
        (holds_variableAt? hsetting.vars hcursor).mono fun _ h => h.elim
      exact harrive (fun _ => rfl) (.refl v) hv
    · obtain ⟨u, hu⟩ := hshape.exists_slot?_of_variableDefault? hdefault
      obtain ⟨w, hw, huw⟩ := hfills.at? hu
      have hsettled : Settled setting document w := hsettled.at? hw
      simp only [Option.bind_eq_bind, Option.bind_some, entryAt?, hu, Option.map_some]
      rw [Document.slot?, hw]
      exact harrive (fun _ => rfl) huw hsettled

theorem means_variable (name : String) :
    Means setting document (.reference [.segment "var", .segment name])
      ((final.variableValue? setting name).getD
        (.node (.reference [.segment "var", .segment name]))) :=
  means_reference (eventually_readSegments_var hsetting hshape hfills hsettled name)

end

namespace Coupling

def accepting (setting : Setting) (document : Document) : Coupling where
  rel s t := s = t ∧ s.Filled setting document ∧ s.cache = []
  strict _ := False
  trees := Node.Plain
  results := Node.Plain
  becomes := becoming setting document
  hereditary := Node.hereditary_plain
  trees_of_results _ h := h
  every_of_becomes _ _ h := h.2.plain
  closed := closed_becoming

theorem accepting_located : (accepting setting document).Located where
  document_eq h := by rw [h.1]
  document h := h.2.1.staged.mono (fun _ h => h) fun _ h => h.plain
  put := by
    rintro s _ s' _ path tree v ⟨rfl, hs, -⟩ hslot ⟨rfl, hs', hcache⟩ hadv hv
    exact ⟨rfl, filled_put hs hslot hs' hadv hv, hcache⟩

theorem accepting_guided (hsetting : setting.Pure) :
    (accepting setting document).Guided setting setting where
  document_eq h := by rw [h.1]
  vars_eq := rfl
  limit := .inl rfl
  cache_eq h := by rw [h.1]
  resolving_eq h := by rw [h.1]
  scopes_eq _ h := by rw [h.1]
  vars := hsetting.vars.mono fun _ h => h.elim
  cache h := by
    rw [h.2.2]
    exact (Value.every_map _).2 (by simp)
  scopes h hv := by
    rw [h.2.1.scopes] at hv
    cases hv
  unresolved h := h
  enter := by
    rintro s _ path ⟨rfl, hs, hcache⟩ - -
    exact ⟨rfl, hs.withResolving _, hcache⟩
  leave := by
    rintro s _ s' _ ⟨rfl, -⟩ ⟨rfl, hs', hcache⟩
    exact ⟨rfl, hs'.withResolving _, hcache⟩
  lookups_eq := rfl
  consult := by
    intro _ _ _ _ _ hdata
    cases hdata.self.2

theorem accepting_invoke (hsetting : setting.Pure) (name : String) {values : List Value}
    (hvalues : ∀ v ∈ values, v.Every Node.Plain) :
    (accepting setting document).Sim (accepting setting document).Result
      (invoke setting name values) fun _ => invoke setting name values := by
  rintro s _ ⟨rfl, hs, hcache⟩
  have hst : (accepting setting document).rel s s := ⟨rfl, hs, hcache⟩
  cases hf : setting.functions.get? name with
  | none =>
    rw [invoke_of_none hf]
    exact .pure hst (by simp)
  | some f =>
    have hpure := hsetting.functions hf
    have hrun := outcome_invoke hf values s
    refine .of_outcome hrun hrun ⟨rfl, ⟨hs.fills, hs.staged, hs.scopes⟩, hcache⟩
      ⟨⟨rfl, rfl⟩, .refl _⟩ ⟨rfl, rfl⟩ fun v hv => ?_
    rw [hpure.history] at hv
    exact hpure.conservative (ok_of_functionResult hv) _ hvalues

theorem accepting_becoming {a : Eval Value} {b : ℕ → Eval Value} {tree : Node}
    (h : (accepting setting document).Sim (accepting setting document).Result a b)
    {c : ℕ → Eval Value} (hmeant : (understood setting document).Sim
      (fun v _ => becoming setting document tree v) a c) :
    (accepting setting document).Sim (fun v _ => becoming setting document tree v) a b := by
  rintro s _ ⟨rfl, hs, hcache⟩ r s' ha he
  obtain ⟨t', hb, hrel, hadv, hbal, -⟩ := h s s ⟨rfl, hs, hcache⟩ r s' ha he
  obtain ⟨-, -, -, -, -, hv⟩ := hmeant s {} ⟨rfl, hs⟩ r s' ha he
  exact ⟨t', hb, hrel, hadv, hbal, hv⟩

section
variable (hsetting : setting.Pure) (hshape : document.Shaped)
  (hfills : (Value.map document).Fills (becoming setting document) (.map final))
  (hsettled : Settled setting document (.map final))
  {name : String} {accept : Value → Bool}
  (haccept : accept ((final.variableValue? setting name).getD
    (.node (.reference [.segment "var", .segment name]))) = true)
include hsetting hshape hfills hsettled haccept

theorem accepting_resolveAccepted {reduce other : Node → Eval Value} {depth : ℕ}
    (hreduce : reduce = reduceNode setting depth)
    (h : ∀ tree, tree.Plain → (accepting setting document).Sim
      (fun v _ => becoming setting document tree v) (reduce tree) fun _ => other tree)
    {segments : List Node} (hr : (Node.reference segments).Plain) :
    (accepting setting document).Sim (accepting setting document).Result
      (resolveReference reduce setting depth segments)
      fun _ => resolveAccepted setting name accept other depth segments := by
  have hself : reduceNode setting (depth + 1) (.reference segments) =
      resolveReference reduce setting depth segments := by rw [hreduce]; rfl
  have hvalue := accepting_becoming ((accepting_guided hsetting).resolveReference h
    (accepting_located.settling h) (.refl _ depth) hr)
    (hself ▸ understands hsetting hshape (depth + 1) (.reference segments) hr)
  have hpass : (accepting setting document).Sim (accepting setting document).Result
      (resolveReference reduce setting depth segments >>= pure)
      fun _ => resolveAccepted setting name accept other depth segments := by
    refine hvalue.bind fun v s t hv hst => ?_
    by_cases hread : readsVariable name segments = true
    · obtain rfl := eq_of_readsVariable hread
      have hshown := (means_variable hsetting hshape hfills hsettled name).unique hv.1
      rw [hshown] at haccept
      simp only [haccept, Bool.not_true, Bool.and_false, Bool.false_eq_true, if_false]
      exact .pure hst hv.2.plain
    · simp only [hread, Bool.false_and, Bool.false_eq_true, if_false]
      exact .pure hst hv.2.plain
  rwa [bind_pure] at hpass

theorem accepting_reduceNode (depth : ℕ) {tree : Node} (htree : tree.Plain) :
    (accepting setting document).Sim (fun v _ => becoming setting document tree v)
      (reduceNode setting depth tree)
      fun _ => nodeWith setting (resolveAccepted setting name accept) depth tree := by
  induction depth generalizing tree with
  | zero => exact .throw _
  | succ depth ih =>
    refine accepting_becoming ?_ (understands hsetting hshape (depth + 1) tree htree)
    simp only [Reduction.reduceNode, reduceStep_eq]
    refine Sim.stepWith (fun tree htree => ih htree)
      (fun segments hr => accepting_resolveAccepted hsetting hshape hfills hsettled haccept rfl
        (fun tree htree => ih htree) hr)
      (fun name values hvalues => accepting_invoke hsetting name hvalues)
      (fun hcomprehension => ?_) htree
    cases hcomprehension.self.1

end

end Coupling

theorem Structured.filled {s : State} (h : Structured s) : s.Filled setting s.document :=
  ⟨.refl _, h.staged.mono (fun _ h => h) fun _ h => h.elim, h.scopes⟩

theorem Structured.readsOnly (hsetting : setting.Pure) {s s' : State} (hs : Structured s)
    {depth : ℕ} (h : (resolveDocument setting depth).outcome s = (.ok (), s')) (name : String) :
    ReadsOnly setting depth name s ((s'.document.variableValue? setting name).getD
      (.node (.reference [.segment "var", .segment name]))) := by
  intro accept haccept
  have hfinal := settled_of_resolveDocument hsetting hs.shaped hs.staged depth rfl hs.scopes h
  have hpass := (Coupling.accepting_located.settling fun tree htree =>
    Coupling.accepting_reduceNode hsetting hs.shaped hfinal.1 hfinal.2 haccept depth htree).passWith
      (.refl _ depth)
  obtain ⟨t', hsame, ⟨rfl, -⟩, -⟩ := hpass s s ⟨rfl, hs.filled, hs.cache⟩ _ s' h nofun
  rw [h]
  exact eventually_const.1 hsame

/-- Where `locals` and `variable` are blocks, each variable has one value: whatever is evaluated
first, a second pass that succeeds reads it as what the document shows of it in the end, or as the
reference itself if it is neither set nor declared. -/
theorem variable_reads_document (hsetting : setting.Pure) {nodes : List Node}
    (hnodes : ∀ node ∈ nodes, node.isTopLevel = true ∧ node.Plain) (depth : ℕ) (calls : List Call)
    (hrun : (runWithin setting depth calls nodes).1 = .ok ()) (name : String) :
    ReadsOnly setting depth name ((structureDocument setting depth nodes).outcome { calls }).2
      (((runWithin setting depth calls nodes).2.document.variableValue? setting name).getD
        (.node (.reference [.segment "var", .segment name]))) := by
  obtain ⟨table, s, hbuild, hpass⟩ := exists_passes_of_run hrun
  have hfirst := structured_of_structureEach hsetting hnodes hbuild
  rw [outcome_structureDocument hbuild]
  exact hfirst.readsOnly hsetting hpass name

def plainSetting : Setting := ⟨[], [], [], 64⟩

def readsDefault : List Node :=
  [.block ["locals"]
      [.named "a" [.map [.named "default" [.number "1"] none]] none,
        .named "b" [.reference [.segment "var", .segment "n"]] none] none,
    .block ["variable", "n"]
      [.named "default" [.reference [.segment "local", .segment "a"]] none] none,
    .named "c" [.reference [.segment "var", .segment "n"]] none]

theorem variable_reads_document_default :
    (run plainSetting [] readsDefault).1 = .ok () ∧
      ReadsOnly plainSetting (depthFor plainSetting readsDefault) "n"
        ((structureDocument plainSetting (depthFor plainSetting readsDefault)
          readsDefault).outcome {}).2
        (((run plainSetting [] readsDefault).2.document.variableValue? plainSetting "n").getD
          (.node (.reference [.segment "var", .segment "n"]))) := by
  have hsetting : plainSetting.Pure := ⟨by simp [plainSetting], by simp [plainSetting, Table.get?]⟩
  have hnodes : ∀ node ∈ readsDefault, node.isTopLevel = true ∧ node.Plain := by
    repeat' first
      | exact List.forall_mem_nil _
      | refine List.forall_mem_cons.2 ⟨?_, ?_⟩
      | refine ⟨rfl, .intro _ ⟨rfl, rfl⟩ ?_⟩
      | refine .intro _ ⟨rfl, rfl⟩ ?_
  have hrun : (run plainSetting [] readsDefault).1 = .ok () := by decide +kernel
  exact ⟨hrun, variable_reads_document hsetting hnodes _ [] hrun "n"⟩

/-- The same variable, defined as a value. Once that has been evaluated it looks like a block. -/
def readsDefinition : List Node :=
  [.block ["locals"]
      [.named "a" [.map [.named "default" [.number "1"] none]] none,
        .named "b" [.reference [.segment "var", .segment "n"]] none] none,
    .block ["variable"] [.named "n" [.reference [.segment "local", .segment "a"]] none] none,
    .named "c" [.reference [.segment "var", .segment "n"]] none]

/-- The local reads the whole definition, the attribute the default inside. -/
theorem not_readsOnly :
    (run plainSetting [] readsDefinition).1 = .ok () ∧
      ¬ ∃ v, ReadsOnly plainSetting (depthFor plainSetting readsDefinition) "n"
        ((structureDocument plainSetting (depthFor plainSetting readsDefinition)
          readsDefinition).outcome {}).2 v := by
  refine ⟨by decide +kernel, ?_⟩
  rintro ⟨v, hv⟩
  have hpass : ((resolveDocument plainSetting (depthFor plainSetting readsDefinition)).outcome
      ((structureDocument plainSetting (depthFor plainSetting readsDefinition)
        readsDefinition).outcome {}).2).1 = .ok () := by decide +kernel
  cases hnumber : v.number?.isSome with
  | true =>
    have hfail : ((acceptedPass plainSetting "n" (·.number?.isSome)
        (depthFor plainSetting readsDefinition)).outcome ((structureDocument plainSetting
          (depthFor plainSetting readsDefinition) readsDefinition).outcome {}).2).1 =
            .error .exhausted := by decide +kernel
    rw [hv _ hnumber, hpass] at hfail
    cases hfail
  | false =>
    have hfail : ((acceptedPass plainSetting "n" (!·.number?.isSome)
        (depthFor plainSetting readsDefinition)).outcome ((structureDocument plainSetting
          (depthFor plainSetting readsDefinition) readsDefinition).outcome {}).2).1 =
            .error .exhausted := by decide +kernel
    rw [hv _ (by simp [hnumber]), hpass] at hfail
    cases hfail

end HclEval
