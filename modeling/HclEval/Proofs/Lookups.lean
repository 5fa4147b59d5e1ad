import HclEval.Proofs.Refinement

/-!
How often an instance is looked up. Its result is kept, and whoever asks later is given what is
kept. But the properties are evaluated before the lookup is made, and that may lead to the same
instance by a reference that is spelled in another way. If it does, the instance is looked up there
and once more afterwards, and the later result takes the place of the earlier one.
-/
namespace HclEval

open Reduction

def Call.isLookup (provider inst : String) : Call → Bool
  | .function .. => false
  | .lookup provider' inst' _ => provider' == provider && inst' == inst

theorem LookupCache.get?_insert_ne (cache : LookupCache) {provider inst provider' inst' : String}
    (h : (provider' == provider && inst' == inst) = false) (v : Value) :
    (cache.insert provider' inst' v).get? provider inst = cache.get? provider inst := by
  unfold LookupCache.get? LookupCache.insert
  rw [Table.get?_insert]
  by_cases hprovider : provider' = provider
  · subst hprovider
    have hinst : inst' ≠ inst := by simpa using h
    rw [if_pos rfl, Option.bind_eq_bind, Option.bind_some, Table.get?_insert, if_neg hinst]
    cases Table.get? cache provider' <;> rfl
  · rw [if_neg hprovider]

section
variable (setting : Setting) (calls : List Call) (provider inst : String)

def NotLookedUp (s : State) : Prop :=
  s.cache.get? provider inst = none ∧
    ∃ made, s.calls = calls ++ made ∧ made.countP (Call.isLookup provider inst) = 0

def LookedUp (s : State) : Prop :=
  ∃ lookup properties made later, setting.lookups.get? provider = some lookup ∧
    s.calls = calls ++ made ++ .lookup provider inst properties :: later ∧
    made.countP (Call.isLookup provider inst) = 0 ∧
    later.countP (Call.isLookup provider inst) = 0 ∧
    s.cache.get? provider inst = some (lookupValue (lookup (calls ++ made) properties))

/-- The instance is looked up at most once, and what is kept is what the only lookup gave. -/
def LookedUpOnce (s : State) : Prop :=
  NotLookedUp calls provider inst s ∨ LookedUp setting calls provider inst s

/-- Nothing was kept for an instance, its properties were evaluated and it was looked up with them;
but their evaluation had looked the same instance up already. -/
def Reentered (final : List Call) : Prop :=
  ∃ depth start properties stop during,
    calls <+: start.calls ∧ start.cache.get? provider inst = none ∧
    (dataProperties? (reduceNode setting depth) depth provider inst).outcome start =
      (.ok (some properties), stop) ∧
    stop.calls = start.calls ++ during ∧ 0 < during.countP (Call.isLookup provider inst) ∧
    stop.calls ++ [.lookup provider inst properties] <+: final

end

section
variable {setting : Setting} {calls : List Call} {provider inst : String} {s s' : State}

theorem Reentered.mono {final final' : List Call} (h : Reentered setting calls provider inst final)
    (hfinal : final <+: final') : Reentered setting calls provider inst final' := by
  obtain ⟨depth, start, properties, stop, during, hstart, hcache, hrun, hduring, hcount, hstop⟩ := h
  exact ⟨depth, start, properties, stop, during, hstart, hcache, hrun, hduring, hcount,
    hstop.trans hfinal⟩

theorem LookedUpOnce.countP_le_one (h : LookedUpOnce setting calls provider inst s)
    {made : List Call} (hmade : s.calls = calls ++ made) :
    made.countP (Call.isLookup provider inst) ≤ 1 := by
  rcases h with ⟨-, before, hcalls, hcount⟩ | ⟨_, _, before, later, -, hcalls, hbefore, hlater, -⟩
  · rw [hmade, List.append_cancel_left_eq] at hcalls
    rw [hcalls, hcount]
    exact Nat.zero_le 1
  · rw [hmade, List.append_assoc, List.append_cancel_left_eq] at hcalls
    rw [hcalls, List.countP_append, List.countP_cons, hbefore, hlater]
    split <;> omega

theorem Reentered.not_lookedUpOnce (h : Reentered setting calls provider inst s.calls) :
    ¬ LookedUpOnce setting calls provider inst s := by
  obtain ⟨-, start, properties, stop, during, ⟨before, hbefore⟩, -, -, hduring, hcount, later,
    hlater⟩ := h
  intro honce
  have hmade : s.calls = calls ++
      (before ++ during ++ [.lookup provider inst properties] ++ later) := by
    rw [← hlater, hduring, ← hbefore]
    simp only [List.append_assoc]
  have hle := honce.countP_le_one hmade
  have hlast : [Call.lookup provider inst properties].countP (Call.isLookup provider inst) = 1 := by
    simp [Call.isLookup]
  simp only [List.countP_append, hlast] at hle
  omega

theorem LookedUpOnce.call (h : LookedUpOnce setting calls provider inst s) {call : Call}
    (hcall : call.isLookup provider inst = false) (hcalls : s'.calls = s.calls ++ [call])
    (hcache : s'.cache.get? provider inst = s.cache.get? provider inst) :
    LookedUpOnce setting calls provider inst s' := by
  have hcount : [call].countP (Call.isLookup provider inst) = 0 := by simp [hcall]
  rcases h with ⟨hnone, made, hmade, hzero⟩ |
    ⟨lookup, properties, made, later, hlookup, hmade, hbefore, hlater, hkept⟩
  · refine .inl ⟨hcache.trans hnone, made ++ [call], ?_, ?_⟩
    · rw [hcalls, hmade, List.append_assoc]
    · rw [List.countP_append, hzero, hcount]
  · refine .inr ⟨lookup, properties, made, later ++ [call], hlookup, ?_, hbefore, ?_,
      hcache.trans hkept⟩
    · rw [hcalls, hmade]
      simp
    · rw [List.countP_append, hlater, hcount]

theorem NotLookedUp.lookup (h : NotLookedUp calls provider inst s) {lookup : Lookup}
    (hlookup : setting.lookups.get? provider = some lookup) (properties : Table Value) :
    LookedUp setting calls provider inst
      ((consult lookup provider inst properties).outcome s).2 := by
  obtain ⟨-, made, hmade, hcount⟩ := h
  refine ⟨lookup, properties, made, [], hlookup, ?_, hcount, rfl, ?_⟩
  · rw [outcome_consult, hmade]
  · rw [outcome_consult, hmade]
    exact LookupCache.get?_insert_self ..

end

namespace Reduction

theorem outcome_dataLookup (reduce : Node → Eval Value) {setting : Setting} (depth : ℕ)
    {provider inst : String} {lookup : Lookup} {s : State}
    (hcache : s.cache.get? provider inst = none)
    (hlookup : setting.lookups.get? provider = some lookup) :
    (dataLookup reduce setting depth provider inst).outcome s =
      match (dataProperties? reduce depth provider inst).outcome s with
      | (.ok (some properties), s') =>
        (.ok (some (lookupValue (lookup s'.calls properties))),
          ((consult lookup provider inst properties).outcome s').2)
      | (.ok none, s') => (.ok none, s')
      | (.error e, s') => (.error e, s') := by
  rw [dataLookup_eq, Eval.outcome_get_bind, hcache, hlookup]
  dsimp only
  rw [Eval.outcome_bind]
  rcases (dataProperties? reduce depth provider inst).outcome s with ⟨_ | _ | _, _⟩ <;> rfl

end Reduction

namespace Coupling

variable {setting : Setting} {calls before : List Call} {provider inst : String}

def lookups (setting : Setting) (calls : List Call) (provider inst : String) (before : List Call) :
    Coupling where
  __ := refinement
  rel s t := s = t ∧ before <+: s.calls ∧
    (LookedUpOnce setting calls provider inst s ∨ Reentered setting calls provider inst s.calls)

theorem lookups_located : (lookups setting calls provider inst before).Located where
  document_eq h := by rw [h.1]
  document _ := (Value.every_true _).staged fun _ h => h
  put := fun {s t s' t' path tree v} h _ h' _ _ => by
    obtain ⟨rfl, -⟩ := h
    obtain ⟨rfl, h'⟩ := h'
    exact ⟨rfl, h'⟩

theorem lookups_directed :
    (lookups setting calls provider inst before).Directed setting setting where
  document_eq h := by rw [h.1]
  vars_eq := rfl
  limit := .inl rfl
  cache_eq h := by rw [h.1]
  resolving_eq h := by rw [h.1]
  scopes_eq _ h := by rw [h.1]
  vars := Value.every_true _
  cache _ := Value.every_true _
  scopes _ _ := Value.every_true _
  unresolved _ := trivial
  enter := fun {s t path} h _ _ => by
    obtain ⟨rfl, h⟩ := h
    exact ⟨rfl, h⟩
  leave := fun {s t s' t'} h h' => by
    obtain ⟨rfl, -⟩ := h
    obtain ⟨rfl, h'⟩ := h'
    exact ⟨rfl, h'⟩

theorem lookups_scoped : (lookups setting calls provider inst before).Scoped := by
  refine Scoped.of_rel (fun s t scope h _ => ?_) fun s t s' t' h h' => ?_
  · obtain ⟨rfl, h⟩ := h
    exact ⟨rfl, h⟩
  · obtain ⟨rfl, -⟩ := h
    obtain ⟨rfl, h'⟩ := h'
    exact ⟨rfl, h'⟩

theorem lookups_call {s s' : State} (h : (lookups setting calls provider inst before).rel s s)
    {call : Call} (hcall : call.isLookup provider inst = false)
    (hcalls : s'.calls = s.calls ++ [call])
    (hcache : s'.cache.get? provider inst = s.cache.get? provider inst) :
    (lookups setting calls provider inst before).rel s' s' := by
  obtain ⟨-, hbefore, hstate⟩ := h
  have hgrows : s.calls <+: s'.calls := hcalls ▸ List.prefix_append ..
  exact ⟨rfl, hbefore.trans hgrows,
    hstate.imp (fun honce => honce.call hcall hcalls hcache) fun hagain => hagain.mono hgrows⟩

theorem lookups_invoke (name : String) (values : List Value) :
    (lookups setting calls provider inst before).Sim (fun _ _ => True) (invoke setting name values)
      fun _ => invoke setting name values := by
  rintro s t ⟨rfl, h⟩
  have hst : (lookups setting calls provider inst before).rel s s := ⟨rfl, h⟩
  cases hf : setting.functions.get? name with
  | none =>
    rw [invoke_of_none hf]
    exact .pure hst trivial
  | some f =>
    have hrun := outcome_invoke hf values s
    exact .of_outcome hrun hrun (lookups_call hst rfl rfl rfl) ⟨⟨rfl, rfl⟩, .refl _⟩ ⟨rfl, rfl⟩
      fun _ _ => trivial

section
variable {depth : ℕ} (hnode : ∀ before tree, (lookups setting calls provider inst before).Sim
  (fun _ _ => True) (reduceNode setting depth tree) fun _ => reduceNode setting depth tree)
include hnode

theorem lookups_dataProperties? (before : List Call) (provider' inst' : String) :
    (lookups setting calls provider inst before).Sim (fun _ _ => True)
      (dataProperties? (reduceNode setting depth) depth provider' inst')
      fun _ => dataProperties? (reduceNode setting depth) depth provider' inst' :=
  (Sim.dataProperties? (lookups_located.settling fun tree _ => hnode before tree) (.refl _ depth)
    provider' inst').mono fun _ _ _ => trivial

theorem lookups_consult {lookup : Lookup} (hlookup : setting.lookups.get? provider = some lookup)
    {s stop : State} (hs : (lookups setting calls provider inst before).rel s s)
    (hcache : s.cache.get? provider inst = none) {properties : Table Value}
    (hrun : (dataProperties? (reduceNode setting depth) depth provider inst).outcome s =
      (.ok (some properties), stop)) :
    LookedUpOnce setting calls provider inst
        ((consult lookup provider inst properties).outcome stop).2 ∨
      Reentered setting calls provider inst (stop.calls ++ [.lookup provider inst properties]) := by
  obtain ⟨-, -, hstate⟩ := hs
  obtain ⟨_, -, ⟨-, ⟨during, hduring⟩, hstop⟩, -⟩ := lookups_dataProperties? hnode s.calls
    provider inst s s ⟨rfl, List.prefix_rfl, hstate⟩ _ _ hrun fun _ _ => trivial
  rcases hstop with (hnone | hlooked) | hagain
  · exact .inl (.inr (hnone.lookup hlookup properties))
  · rcases hstate with (⟨-, made, hmade, hcount⟩ | ⟨_, _, _, _, -, -, -, -, hkept⟩) | hagain
    · refine .inr ⟨depth, s, properties, stop, during, ⟨made, hmade.symm⟩, hcache, hrun,
        hduring.symm, ?_, List.prefix_rfl⟩
      obtain ⟨_, own, first, later, -, hcalls, -⟩ := hlooked
      rw [← hduring, hmade, List.append_assoc, List.append_assoc, List.append_cancel_left_eq]
        at hcalls
      have hcounts := congrArg (List.countP (Call.isLookup provider inst)) hcalls
      have hown : (Call.lookup provider inst own).isLookup provider inst = true := by
        simp [Call.isLookup]
      rw [List.countP_append, List.countP_append, List.countP_cons, hcount, if_pos hown] at hcounts
      omega
    · rw [hcache] at hkept
      cases hkept
    · exact .inr (hagain.mono (hduring ▸ List.append_assoc s.calls .. ▸ List.prefix_append ..))
  · exact .inr (hagain.mono (List.prefix_append ..))

theorem lookups_dataLookup (provider' inst' : String) :
    (lookups setting calls provider inst before).Sim (fun _ _ => True)
      (dataLookup (reduceNode setting depth) setting depth provider' inst')
      fun _ => dataLookup (reduceNode setting depth) setting depth provider' inst' := by
  rintro s t ⟨rfl, hs⟩
  have hst : (lookups setting calls provider inst before).rel s s := ⟨rfl, hs⟩
  cases hcache : s.cache.get? provider' inst' with
  | some v =>
    rw [dataLookup_eq]
    refine At.get_bind ?_
    rw [hcache]
    exact .pure hst trivial
  | none =>
    cases hlookup : setting.lookups.get? provider' with
    | none =>
      rw [dataLookup_eq]
      refine At.get_bind ?_
      rw [hcache, hlookup]
      exact .pure hst trivial
    | some lookup =>
      have hrun := outcome_dataLookup (reduceNode setting depth) depth hcache hlookup
      rcases hproperties : (dataProperties? (reduceNode setting depth) depth provider'
        inst').outcome s with ⟨r, stop⟩
      obtain ⟨_, -, ⟨rfl, hbefore, hstop⟩, hadv, hbal, -⟩ := lookups_dataProperties? hnode before
        provider' inst' s s hst _ _ hproperties fun _ _ => trivial
      rw [hproperties] at hrun
      rcases r with e | _ | properties
      · exact .of_outcome hrun hrun ⟨rfl, hbefore, hstop⟩ hadv hbal fun _ _ => trivial
      · exact .of_outcome hrun hrun ⟨rfl, hbefore, hstop⟩ hadv hbal fun _ _ => trivial
      · refine .of_outcome hrun hrun ?_ ⟨⟨hadv.scopes, hadv.resolving⟩, hadv.document⟩
          ⟨hbal.scopes, hbal.resolving⟩ fun _ _ => trivial
        by_cases hown : (Call.lookup provider' inst' properties).isLookup provider inst = true
        · obtain ⟨rfl, rfl⟩ : provider' = provider ∧ inst' = inst := by
            simpa [Call.isLookup] using hown
          exact ⟨rfl, hbefore.trans (List.prefix_append ..),
            lookups_consult hnode hlookup hst hcache hproperties⟩
        · rw [Bool.not_eq_true] at hown
          exact lookups_call ⟨rfl, hbefore, hstop⟩ hown rfl
            (LookupCache.get?_insert_ne _ hown _)

end

theorem lookups_reduceNode (depth : ℕ) (before : List Call) (tree : Node) :
    (lookups setting calls provider inst before).Sim (fun _ _ => True)
      (reduceNode setting depth tree) fun _ => reduceNode setting depth tree := by
  induction depth generalizing before tree with
  | zero => exact .throw _
  | succ depth ih =>
    simp only [Reduction.reduceNode, reduceStep_eq]
    have hlooksUp : (lookups setting calls provider inst before).LooksUp setting setting depth
        (fun _ => depth) (reduceNode setting depth) fun _ => reduceNode setting depth :=
      fun _ provider' inst' => (lookups_dataLookup ih provider' inst').mono
        fun _ _ _ _ _ => Value.every_true _
    exact (Sim.stepWith (fun tree _ => ih before tree)
      (fun segments hr => lookups_directed.resolveReference (fun tree _ => ih before tree)
        (lookups_located.settling fun tree _ => ih before tree) (.refl _ depth) hlooksUp hr)
      (fun name values _ => (lookups_invoke name values).mono fun _ _ _ => Value.every_true _)
      (fun _ => lookups_scoped) trivial).mono fun _ _ _ => trivial

theorem lookups_alone : (lookups setting calls provider inst before).Alone fun s =>
    before <+: s.calls ∧
      (LookedUpOnce setting calls provider inst s ∨
        Reentered setting calls provider inst s.calls) where
  rel_iff _ _ := .rfl
  strict _ := trivial

end Coupling

/-- Whatever a document and whatever the functions and lookups: in the state that an evaluation
leaves, successful or not, an instance has been looked up at most once since the start, and what is
kept is what that lookup gave, unless the instance was looked up while its own properties were
evaluated for its lookup. Then this is not so. -/
theorem lookedUpOnce_iff (setting : Setting) (calls : List Call) (nodes : List Node)
    (provider inst : String) (depth : ℕ) :
    LookedUpOnce setting calls provider inst
        ((reduceDocument setting depth nodes).outcome { calls }).2 ↔
      ¬ Reentered setting calls provider inst
        ((reduceDocument setting depth nodes).outcome { calls }).2.calls := by
  refine ⟨fun honce hagain => hagain.not_lookedUpOnce honce, Or.resolve_right ?_⟩
  have hstart : NotLookedUp calls provider inst { calls } :=
    ⟨rfl, [], (List.append_nil calls).symm, rfl⟩
  exact (Coupling.lookups_alone.reduceDocument
    (fun tree _ => Coupling.lookups_reduceNode depth calls tree) (fun hs _ => hs)
    Coupling.lookups_located nodes (fun _ _ => trivial)
    ⟨List.prefix_rfl, .inl (.inl hstart)⟩).1.2

def echoesSetting : Setting :=
  ⟨[], [("p", fun _ properties => .ok properties), ("q", fun _ properties => .ok properties)], [],
    64⟩

/-- As long as nothing is kept for the instance `m` the property `x` leads back to its own block,
by a reference that is not spelled like the one that led there. -/
def readsItself : List Node :=
  [.block ["locals"]
      [.named "a" [.reference [.segment "data", .segment "p", .segment "n"]] none] none,
    .block ["data", "p", "n"]
      [.named "x"
        [.reference [.segment "data", .segment "q"], .operator .equal,
          .map [.named "m" [.map [.named "id" [.string "n"] none]] none],
          .operator .question, .number "5", .operator .colon,
          .reference [.segment "data", .segment "p",
            .array [.reference [.segment "data", .segment "q", .segment "m", .segment "id"]]]]
        none] none,
    .block ["data", "q", "m"] [.named "id" [.string "n"] none] none]

/-- The property is evaluated twice, and the instance is looked up with either value. -/
theorem not_lookedUpOnce :
    (run echoesSetting [] readsItself).1 = .ok () ∧
      ¬ LookedUpOnce echoesSetting [] "p" "n" (run echoesSetting [] readsItself).2 := by
  refine ⟨by decide +kernel, fun honce => ?_⟩
  have htwice : (run echoesSetting [] readsItself).2.calls.countP (Call.isLookup "p" "n") = 2 := by
    decide +kernel
  have hle := honce.countP_le_one (List.nil_append _).symm
  omega

end HclEval
