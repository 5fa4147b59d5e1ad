import HclEval.Proofs.Coupling.Evaluation

/-!
Which scope an attribute of the document is evaluated in. The scopes that are open when it is
reached first are the scopes it is evaluated in, so its value depends on them: but only on what
they bind the names to that references in the document, in variables and in other values start
with.
-/
namespace HclEval

open Filter Reduction

def bound? (scopes : List (Table Value)) (name : String) : Option Value :=
  scopes.findSome? (·.get? name)

/-- All references in a tree that start with a name start with one of the given names. -/
abbrev Node.StartsIn (names : String → Prop) : Node → Prop :=
  Node.Every fun tree => ∀ name rest, tree = .reference (.segment name :: rest) → names name

abbrev Value.StartsIn (names : String → Prop) (v : Value) : Prop := v.Every (Node.StartsIn names)

structure Setting.StartsIn (names : String → Prop) (setting : Setting) : Prop where
  vars : (Value.map setting.vars).StartsIn names
  functions : ∀ {name f calls values v}, setting.functions.get? name = some f →
    (∀ v ∈ values, v.StartsIn names) → f calls values = .ok v → v.StartsIn names
  lookups : ∀ {provider lookup calls properties result},
    setting.lookups.get? provider = some lookup → (Value.map properties).StartsIn names →
      lookup calls properties = .ok result → (Value.map result).StartsIn names

structure State.StartsIn (names : String → Prop) (s : State) : Prop where
  document : (Value.map s.document).StartsIn names
  cache : s.cache.toValue.StartsIn names
  scopes : ∀ scope ∈ s.scopes, (Value.map scope).StartsIn names

variable {names : String → Prop}

/-- Two states that differ in their scopes only, which bind the given names alike. -/
structure State.Alike (names : String → Prop) (s t : State) : Prop where
  eq : t = { s with scopes := t.scopes }
  bound : ∀ name, names name → bound? t.scopes name = bound? s.scopes name
  startsIn : s.StartsIn names

namespace Coupling

def alike (names : String → Prop) : Coupling where
  rel := State.Alike names
  strict _ := True
  trees := Node.StartsIn names
  results := Node.StartsIn names
  becomes _ v := v.StartsIn names
  hereditary := Node.hereditary_every _
  trees_of_results := fun _ h => h
  every_of_becomes := fun _ _ h => h
  closed := fun _ _ _ hv hvw => hvw.every (fun _ _ h => h) hv

theorem alike_invoke {setting : Setting} (hsetting : setting.StartsIn names) (name : String)
    {values : List Value} (hvalues : ∀ v ∈ values, v.StartsIn names) :
    (alike names).Sim (alike names).Result (invoke setting name values)
      fun _ => invoke setting name values := by
  intro s t hst
  cases hf : setting.functions.get? name with
  | none =>
    rw [invoke_of_none hf]
    exact .pure hst (by simp)
  | some f =>
    have ht := outcome_invoke hf values t
    rw [show t.calls = s.calls by rw [hst.eq]] at ht
    refine .of_outcome (outcome_invoke hf values s) ht ?_ ⟨⟨rfl, rfl⟩, .refl _⟩ ⟨rfl, rfl⟩ ?_
    · exact ⟨by rw [hst.eq], hst.bound, hst.startsIn.document, hst.startsIn.cache,
        hst.startsIn.scopes⟩
    · exact fun v hv => hsetting.functions hf hvalues (ok_of_functionResult hv)

theorem alike_consult {setting : Setting} (hsetting : setting.StartsIn names)
    {lookup : Lookup} {provider inst : String} {properties : Table Value}
    (hlookup : setting.lookups.get? provider = some lookup)
    (hproperties : (Value.map properties).StartsIn names) :
    (alike names).Sim (fun v _ => v.StartsIn names) (consult lookup provider inst properties)
      fun _ => consult lookup provider inst properties := by
  intro s t hst
  have hv : (lookupValue (lookup s.calls properties)).StartsIn names := by
    cases hresult : lookup s.calls properties with
    | ok result => exact hsetting.lookups hlookup hproperties hresult
    | error _ => simp [lookupValue]
  have ht := outcome_consult lookup provider inst properties t
  rw [show t.calls = s.calls by rw [hst.eq], show t.cache = s.cache by rw [hst.eq]] at ht
  refine .of_outcome (outcome_consult lookup provider inst properties s) ht ?_
    ⟨⟨rfl, rfl⟩, .refl _⟩ ⟨rfl, rfl⟩ fun v h => by cases h; exact hv
  exact ⟨by rw [hst.eq], hst.bound, hst.startsIn.document,
    every_cache_insert hst.startsIn.cache hv, hst.startsIn.scopes⟩

theorem alike_concord {setting : Setting} (hsetting : setting.StartsIn names) :
    (alike names).Concord setting setting where
  vars_eq := rfl
  lookups_eq := rfl
  limit := .inl rfl
  document_eq h := by rw [h.eq]
  cache_eq h := by rw [h.eq]
  resolving_eq h := by rw [h.eq]
  scopes_eq htree h := h.bound _ (Node.Every.self htree _ _ rfl)
  vars := hsetting.vars
  document h := Value.Every.staged (fun _ h => h) h.startsIn.document
  cache h := h.startsIn.cache
  scopes := by
    intro s t name v h hv
    obtain ⟨scope, hmem, hget⟩ := List.exists_of_findSome?_eq_some hv
    exact (Value.every_map scope).1 (h.startsIn.scopes scope hmem) _ (Table.mem_of_get? hget)
  unresolved h := h
  put := by
    intro s t s' t' path tree v hst hslot hst' hadv hv
    have hpath := Document.ne_nil_of_slot?_node hslot
    refine ⟨by rw [hst'.eq], hst'.bound, ?_, hst'.startsIn.cache, hst'.startsIn.scopes⟩
    rw [Document.map_put _ hpath]
    exact hst'.startsIn.document.put hv
  consult _ := alike_consult hsetting
  enter := by
    intro s t path hst _ _
    exact ⟨by rw [hst.eq], hst.bound, hst.startsIn.document, hst.startsIn.cache,
      hst.startsIn.scopes⟩
  leave := by
    intro s t s' t' hst hst'
    refine ⟨by rw [hst.eq, hst'.eq], hst'.bound, hst'.startsIn.document, hst'.startsIn.cache,
      hst'.startsIn.scopes⟩
  becomes_of_every _ h := h
  invoke name values := alike_invoke hsetting name
  scope _ := by
    refine Scoped.of_rel (fun s t scope hst hscope => ?_) fun s t s' t' hst hst' => ?_
    · refine ⟨by rw [hst.eq], fun name hname => ?_, hst.startsIn.document, hst.startsIn.cache,
        List.forall_mem_cons.2 ⟨hscope, hst.startsIn.scopes⟩⟩
      have hrest := hst.bound name hname
      unfold bound? at hrest ⊢
      rw [List.findSome?_cons, List.findSome?_cons, hrest]
    · exact ⟨by rw [hst'.eq], hst.bound, hst'.startsIn.document, hst'.startsIn.cache,
        hst.startsIn.scopes⟩

end Coupling

/-- Forcing a location gives the same result and stores the same value under both stacks of
scopes. -/
def ForcedAlike (setting : Setting) (s : State) (scopes scopes' : List (Table Value)) : Prop :=
  ∀ depth path,
    let (result, after) := (forceSlot (reduceNode setting depth) path).outcome { s with scopes }
    (forceSlot (reduceNode setting depth) path).outcome { s with scopes := scopes' } =
      (result, { after with scopes := scopes' })

theorem forcedAlike_of_bound {setting : Setting} {s : State} {scopes scopes' : List (Table Value)}
    (hsetting : setting.StartsIn names) (hs : State.StartsIn names { s with scopes })
    (hbound : ∀ name, names name → bound? scopes' name = bound? scopes name) :
    ForcedAlike setting s scopes scopes' := by
  intro depth path
  have hforce := Coupling.Sim.forceSlot
    (fun tree => Coupling.Sim.reduceNode (.refl _ depth) (Coupling.alike_concord hsetting))
    (Coupling.alike_concord hsetting).toLocated path
  have hstart : State.Alike names { s with scopes } { s with scopes := scopes' } :=
    ⟨rfl, hbound, hs⟩
  rcases ha : (forceSlot (reduceNode setting depth) path).outcome { s with scopes }
    with ⟨result, after⟩
  obtain ⟨t', hb, hrel, -, hbal, -⟩ := hforce _ _ hstart _ _ ha fun _ _ => trivial
  obtain ⟨i, hi⟩ := hb.exists
  rw [hi, hrel.eq, hbal.scopes]

def namedAfter (key name : String) : Node := .named key [.reference [.segment name]] none

theorem outcome_namedAfter (setting : Setting) (depth : ℕ) (key name : String) (s : State) :
    (reduceNode setting (depth + 2) (namedAfter key name)).outcome s =
      (reduceNode setting (depth + 1) (.reference [.segment name])).outcome s := by
  change (evaluate (reduceNode setting (depth + 1)) [.reference [.segment name]]).outcome s = _
  simp only [evaluate, evaluateFrom]
  rw [Eval.outcome_bind]
  rcases (reduceNode setting (depth + 1) (.reference [.segment name])).outcome s with ⟨_ | _, _⟩ <;>
    rfl

theorem outcome_reference (setting : Setting) (hmax : 0 < setting.maxDepth) (depth : ℕ)
    (name : String) {s : State} (hs : s.resolving = []) :
    (reduceNode setting (depth + 1) (.reference [.segment name])).outcome s =
      match (follow (reduceNode setting depth) setting depth (origin? s name) []).outcome
          { s with resolving := [Node.pathText [.segment name]] } with
      | (.ok v?, s') => (.ok (v?.getD (.node (.reference [.segment name]))),
          { s' with resolving := s'.resolving.tail })
      | (.error e, s') => (.error e, { s' with resolving := s'.resolving.tail }) := by
  change (resolveReference (reduceNode setting depth) setting depth [.segment name]).outcome s = _
  have hmax' : ¬ setting.maxDepth ≤ 0 := by omega
  unfold resolveReference
  rw [Eval.outcome_get_bind]
  simp only [hs, List.contains_nil, Bool.false_eq_true, if_false, List.length_nil, hmax']
  rw [Eval.outcome_bind, Eval.outcome_withReference, hs]
  have hsegments : (resolveSegments (reduceNode setting depth) setting depth
      [.segment name]).outcome { s with resolving := [Node.pathText [.segment name]] } =
        (follow (reduceNode setting depth) setting depth (origin? s name) []).outcome
          { s with resolving := [Node.pathText [.segment name]] } := rfl
  rw [hsegments]
  rcases (follow (reduceNode setting depth) setting depth (origin? s name) []).outcome
    { s with resolving := [Node.pathText [.segment name]] } with ⟨_ | _ | _, _⟩ <;> rfl

def brokenDocument (key name : String) : Document :=
  [("locals", .map [("k", .node (.literal .number ""))]), (key, .node (namedAfter key name))]

def brokenNamespaces (key name : String) (scopes : List (Table Value)) : State where
  document := brokenDocument key name
  cache := [("k", [("k", .node (.literal .number ""))])]
  scopes := scopes

def brokenSetting : Setting := ⟨[], [], [("k", .node (.literal .number ""))], 1⟩

section
variable {key name : String} {scopes : List (Table Value)}

theorem origin?_brokenNamespaces (hname : key ≠ name) (hbound : bound? scopes name = none) :
    (∃ c, (c = .locals ∨ c = .vars ∨ c = .data ∨ c = .slot [.key "locals"]) ∧
      origin? (brokenNamespaces key name scopes) name = some c) ∨
        origin? (brokenNamespaces key name scopes) name = none := by
  unfold origin?
  unfold bound? at hbound
  rw [show (brokenNamespaces key name scopes).scopes = scopes from rfl, hbound]
  dsimp only
  split
  · exact .inl ⟨_, .inl rfl, rfl⟩
  · exact .inl ⟨_, .inr (.inl rfl), rfl⟩
  · exact .inl ⟨_, .inr (.inr (.inl rfl)), rfl⟩
  · by_cases hlocals : "locals" = name
    · subst hlocals
      exact .inl ⟨_, .inr (.inr (.inr rfl)), rfl⟩
    · simp [brokenNamespaces, brokenDocument, Table.contains, Table.get?, hlocals, hname]

variable (hkey : key ≠ "locals")
include hkey

theorem slot?_brokenDocument : (brokenDocument key name).slot? [.key key] =
    some (.node (namedAfter key name)) := by
  rw [Document.slot?_key]
  simp [brokenDocument, Table.get?, hkey.symm]

theorem brokenDocument_put_inj {v w : Value}
    (h : (brokenDocument key name).put [.key key] v = (brokenDocument key name).put [.key key] w) :
    v = w := by
  have hslot := congrArg (Document.slot? · [.key key]) h
  have hpath : [Step.key key] ≠ [] := by simp
  simp only [Document.slot?_put _ hpath, slot?_brokenDocument hkey, Option.map_some,
    Option.some.injEq] at hslot
  exact hslot

theorem outcome_forceSlot_of_bound {v : Value} (hv : v.Every fun _ => False)
    (hbound : bound? scopes name = some v) :
    ((forceSlot (reduceNode brokenSetting 4) [.key key]).outcome
        (brokenNamespaces key name scopes)).1 = .ok () ∧
      ((forceSlot (reduceNode brokenSetting 4) [.key key]).outcome
        (brokenNamespaces key name scopes)).2.document =
          (brokenDocument key name).put [.key key] v := by
  have horigin : origin? (brokenNamespaces key name scopes) name = some (.value v) := by
    unfold origin?
    unfold bound? at hbound
    rw [show (brokenNamespaces key name scopes).scopes = scopes from rfl, hbound]
  rw [outcome_forceSlot (slot?_brokenDocument hkey), outcome_namedAfter,
    outcome_reference brokenSetting Nat.zero_lt_one 2 name rfl, horigin]
  unfold follow finish
  rw [Eval.outcome_bind_ok (outcome_reduceValue_of_free _ hv _)]
  exact ⟨rfl, rfl⟩

theorem outcome_forceSlot_of_unbound (hname : key ≠ name) (hbound : bound? scopes name = none) :
    (∃ e, ((forceSlot (reduceNode brokenSetting 4) [.key key]).outcome
        (brokenNamespaces key name scopes)).1 = .error e) ∨
      ((forceSlot (reduceNode brokenSetting 4) [.key key]).outcome
        (brokenNamespaces key name scopes)).2.document =
          (brokenDocument key name).put [.key key] (.node (.reference [.segment name])) := by
  rw [outcome_forceSlot (slot?_brokenDocument hkey), outcome_namedAfter,
    outcome_reference brokenSetting Nat.zero_lt_one 2 name rfl]
  have herror {c : Cursor} (hc : c = .locals ∨ c = .vars ∨ c = .data ∨ c = .slot [.key "locals"]) :
      ∃ e s, (follow (reduceNode brokenSetting 2) brokenSetting 2 (some c) []).outcome
        { brokenNamespaces key name scopes with resolving := [Node.pathText [.segment name]] } =
          (.error e, s) := by
    rcases hc with rfl | rfl | rfl | rfl <;> exact ⟨_, _, rfl⟩
  rcases origin?_brokenNamespaces hname hbound with ⟨c, hc, horigin⟩ | horigin
  · obtain ⟨e, s, hfollow⟩ := herror hc
    rw [horigin, hfollow]
    exact .inl ⟨e, rfl⟩
  · rw [horigin]
    exact .inr rfl

end

theorem startsIn_namedAfter {name : String} (hname : names name) (key : String) :
    (namedAfter key name).StartsIn names := by
  refine .intro _ (by simp [namedAfter]) fun part hpart => ?_
  obtain rfl : part = .reference [.segment name] := by simpa [namedAfter, Node.parts] using hpart
  refine .intro _ (fun other rest h => by cases h; exact hname) fun part hpart => ?_
  obtain rfl : part = .segment name := by simpa [Node.parts] using hpart
  exact .intro _ (by simp) (by simp [Node.parts])

theorem startsIn_brokenLiteral : (Node.literal .number "").StartsIn names :=
  .intro _ (by simp) (by simp [Node.parts])

theorem startsIn_brokenSetting : brokenSetting.StartsIn names where
  vars := by simpa [brokenSetting] using startsIn_brokenLiteral
  functions h := by cases h
  lookups h := by cases h

theorem startsIn_brokenNamespaces {name : String} (hname : names name) (key : String) :
    (brokenNamespaces key name []).StartsIn names where
  document := by
    simpa [brokenNamespaces, brokenDocument] using
      ⟨startsIn_brokenLiteral, startsIn_namedAfter hname key⟩
  cache := by simpa [brokenNamespaces, LookupCache.toValue] using startsIn_brokenLiteral
  scopes := by simp [brokenNamespaces]

theorem free_of_bound? {scopes : List (Table Value)} {name : String} {v : Value}
    (hfree : ∀ scope ∈ scopes, (Value.map scope).Every fun _ => False)
    (hv : bound? scopes name = some v) : v.Every fun _ => False := by
  obtain ⟨scope, hmem, hget⟩ := List.exists_of_findSome?_eq_some hv
  exact (Value.every_map scope).1 (hfree scope hmem) _ (Table.mem_of_get? hget)

theorem bound?_eq_of_forcedAlike {key name : String} (hkey : key ≠ "locals") (hname : key ≠ name)
    {scopes scopes' : List (Table Value)}
    (hfree : ∀ scope ∈ scopes, (Value.map scope).Every fun _ => False)
    (hfree' : ∀ scope ∈ scopes', (Value.map scope).Every fun _ => False)
    (h : ForcedAlike brokenSetting (brokenNamespaces key name []) scopes scopes') :
    bound? scopes' name = bound? scopes name := by
  have hforced : (forceSlot (reduceNode brokenSetting 4) [.key key]).outcome
      (brokenNamespaces key name scopes') =
        (((forceSlot (reduceNode brokenSetting 4) [.key key]).outcome
          (brokenNamespaces key name scopes)).1,
        { ((forceSlot (reduceNode brokenSetting 4) [.key key]).outcome
          (brokenNamespaces key name scopes)).2 with scopes := scopes' }) := h 4 [.key key]
  have hresult := congrArg Prod.fst hforced
  have hdocument := congrArg (·.2.document) hforced
  dsimp only at hresult hdocument
  cases hb : bound? scopes name with
  | some v =>
    have hv := free_of_bound? hfree hb
    have hread := outcome_forceSlot_of_bound hkey hv hb
    rw [hread.1] at hresult
    rw [hread.2] at hdocument
    cases hb' : bound? scopes' name with
    | some v' =>
      rw [(outcome_forceSlot_of_bound hkey (free_of_bound? hfree' hb') hb').2] at hdocument
      rw [brokenDocument_put_inj hkey hdocument]
    | none =>
      rcases outcome_forceSlot_of_unbound hkey hname hb' with ⟨e, he⟩ | hleft
      · cases hresult.symm.trans he
      · cases brokenDocument_put_inj hkey (hdocument.symm.trans hleft)
        exact absurd ((Value.every_node _).1 hv) id
  | none =>
    cases hb' : bound? scopes' name with
    | some v' =>
      have hv' := free_of_bound? hfree' hb'
      have hread := outcome_forceSlot_of_bound hkey hv' hb'
      rw [hread.1] at hresult
      rw [hread.2] at hdocument
      rcases outcome_forceSlot_of_unbound hkey hname hb with ⟨e, he⟩ | hleft
      · cases hresult.trans he
      · cases brokenDocument_put_inj hkey (hdocument.trans hleft)
        exact absurd ((Value.every_node _).1 hv') id
    | none => rfl

/-- Two stacks of scopes without syntax evaluate the attributes of all documents alike if and only
if they bind the names that references start with alike. -/
theorem forcedAlike_iff {names : String → Prop} {scopes scopes' : List (Table Value)}
    (hfree : ∀ scope ∈ scopes, (Value.map scope).Every fun _ => False)
    (hfree' : ∀ scope ∈ scopes', (Value.map scope).Every fun _ => False) :
    (∀ setting s, setting.StartsIn names → s.StartsIn names →
      ForcedAlike setting s scopes scopes') ↔
        ∀ name, names name → bound? scopes' name = bound? scopes name := by
  constructor
  · intro h name hname
    have hkey : name ++ "_" ≠ "locals" := fun h => by
      have hlast := congrArg (fun text : String => text.toList.getLast?) h
      simp at hlast
    have hother : name ++ "_" ≠ name := fun h => by
      have hlength := congrArg String.length h
      simp at hlength
    exact bound?_eq_of_forcedAlike hkey hother hfree hfree'
      (h brokenSetting _ startsIn_brokenSetting (startsIn_brokenNamespaces hname _))
  · intro hbound setting s hsetting hs
    refine forcedAlike_of_bound hsetting ⟨hs.document, hs.cache, fun scope hmem => ?_⟩ hbound
    exact (hfree scope hmem).mono fun _ h => h.elim

theorem forcedAlike_iff_unbound :
    ForcedAlike brokenSetting (brokenNamespaces "c" "b" []) [[("a", .bool true)]] [] := by
  have hbound : ∀ name, name = "b" → bound? [] name = bound? [[("a", Value.bool true)]] name := by
    intro name hname
    rw [hname]
    rfl
  have hstate : (brokenNamespaces "c" "b" []).StartsIn fun name => name = "b" :=
    startsIn_brokenNamespaces (by rfl) "c"
  exact (forcedAlike_iff (by simp) (by simp)).2 hbound brokenSetting _ startsIn_brokenSetting hstate

def shadowing : List Node :=
  [.named "a" [.comprehension none "b" (.array [.literal .number "1"]) none
      (.reference [.segment "c"]) none false] none,
    namedAfter "c" "b",
    .named "b" [.literal .number "2"] none]

/-- Iteration variables reach the attributes of the document: what an attribute comes to depends
on who reads it first. -/
theorem not_forcedAlike :
    (¬ ∀ setting s scopes scopes', ForcedAlike setting s scopes scopes') ∧
      let document := (run ⟨[], [], [], 64⟩ [] shadowing).2.document
      (Table.get? document "b").bind Value.number? = some (.ofNat 2) ∧
        (Table.get? document "c").bind Value.number? = some (.ofNat 1) := by
  refine ⟨fun h => ?_, by decide +kernel, by decide +kernel⟩
  have hforced := h ⟨[], [], [], 64⟩
    { document := [("c", .node (namedAfter "c" "b")), ("b", .number (.ofNat 2))] }
    [[("b", .number (.ofNat 1))]] [] 5 [.key "c"]
  have hread := congrArg (fun outcome => (Table.get? outcome.2.document "c").bind Value.number?)
    hforced
  revert hread
  decide +kernel

end HclEval
