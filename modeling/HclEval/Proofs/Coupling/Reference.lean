import HclEval.Proofs.Coupling.Settling

/-!
References side by side. Both evaluations start at the same places, select alike, and so come to the
same location of the document or to the same value. What is found outside of the document, in
variables, scopes and the results of lookups, may be evaluated as well.
-/
namespace HclEval

open Filter Reduction

namespace Reduction

variable {p : Node → Prop}

/-- What has to be known of a cursor if the trees with a property are evaluated: it is at a value
with such trees, and among the lookups only if some reference leads there. -/
def Cursor.Holds (p : Node → Prop) : Cursor → Prop
  | .value v => v.Every p
  | .data | .provider _ => ∃ rest, p (.reference (.segment "data" :: rest))
  | _ => True

theorem cursor_of_variableDefault? {document : Document} {name : String} {cursor : Cursor}
    (h : variableDefault? document name = some cursor) :
    (∃ path, cursor = .slot path) ∨ cursor = .value .null := by
  unfold variableDefault? at h
  simp only [Option.bind_eq_bind, Option.bind_eq_some_iff] at h
  obtain ⟨_, _, _, _, definition, _, h⟩ := h
  split at h <;> simp only [Option.bind_some, Option.pure_def, Option.bind_eq_some_iff] at h
  · obtain ⟨last, _, h⟩ := h
    split at h
    · split at h <;> cases h <;> simp
    · cases h
      simp
  · split at h
    · split at h <;> cases h <;> simp
    · cases h
      simp

theorem holds_variableDefault? {document : Document} {name : String} {cursor : Cursor}
    (h : variableDefault? document name = some cursor) : cursor.Holds p := by
  obtain ⟨path, rfl⟩ | rfl := cursor_of_variableDefault? h <;> simp [Cursor.Holds]

theorem holds_variableAt? {setting : Setting} (hvars : (Value.map setting.vars).Every p)
    {document : Document} {accessor : Accessor} {cursor : Cursor}
    (h : variableAt? setting document accessor = some cursor) : cursor.Holds p := by
  rw [Value.every_map] at hvars
  cases accessor with
  | name name =>
    simp only [variableAt?] at h
    split at h
    · rename_i v hv
      cases h
      exact hvars _ (Table.mem_of_get? hv)
    · exact holds_variableDefault? h
  | index x =>
    simp only [variableAt?, Option.bind_eq_bind, Option.bind_eq_some_iff] at h
    obtain ⟨i, _, e, he, h⟩ := h
    cases h
    exact hvars e (List.mem_of_getElem? he)

theorem ne_locals_of_variableAt? {setting : Setting} {document : Document} {accessor : Accessor}
    {cursor : Cursor} (h : variableAt? setting document accessor = some cursor) :
    cursor ≠ .locals := by
  cases accessor with
  | name name =>
    simp only [variableAt?] at h
    split at h
    · cases h
      simp
    · obtain ⟨path, rfl⟩ | rfl := cursor_of_variableDefault? h <;> simp
  | index x =>
    simp only [variableAt?, Option.bind_eq_bind, Option.bind_eq_some_iff] at h
    obtain ⟨_, _, _, _, h⟩ := h
    cases h
    simp

theorem name_of_origin?_locals {s : State} {name : String} (h : origin? s name = some .locals) :
    name = "local" := by
  unfold origin? at h
  split at h
  · cases h
  · split at h
    · rfl
    · cases h
    · cases h
    · split at h <;> cases h

def lookupValue : Except String (Table Value) → Value
  | .ok result => .map result
  | .error _ => .null

def consult (lookup : Lookup) (provider inst : String) (properties : Table Value) :
    Eval Value := do
  let before := (← get).calls
  Eval.record (.lookup provider inst properties)
  let value := lookupValue (lookup before properties)
  modify fun state => { state with cache := state.cache.insert provider inst value }
  return value

theorem outcome_consult (lookup : Lookup) (provider inst : String) (properties : Table Value)
    (s : State) :
    (consult lookup provider inst properties).outcome s =
      (.ok (lookupValue (lookup s.calls properties)),
        { s with
          calls := s.calls ++ [.lookup provider inst properties]
          cache := s.cache.insert provider inst (lookupValue (lookup s.calls properties)) }) := rfl

theorem dataLookup_eq (reduce : Node → Eval Value) (setting : Setting) (depth : ℕ)
    (provider inst : String) :
    dataLookup reduce setting depth provider inst = (do
      match (← get).cache.get? provider inst with
      | some value => return some value
      | none =>
        let some lookup := setting.lookups.get? provider | return some .null
        let some properties ← dataProperties? reduce depth provider inst | return none
        return some (← consult lookup provider inst properties)) := by
  unfold dataLookup consult
  simp only [bind_assoc]
  rfl

theorem toValue_insert (cache : LookupCache) (provider inst : String) (v : Value) :
    (cache.insert provider inst v).toValue = .map (Table.insert (cache.map fun e =>
      (e.1, Value.map e.2)) provider
        (.map (Table.insert ((Table.get? cache provider).getD []) inst v))) := by
  unfold LookupCache.insert LookupCache.toValue
  congr 1
  generalize Table.insert ((Table.get? cache provider).getD []) inst v = results
  induction cache with
  | nil => rfl
  | cons e rest ih =>
    obtain ⟨k, r⟩ := e
    by_cases hk : k = provider
    · simp [Table.insert, hk]
    · simpa [Table.insert, hk] using ih

theorem every_cache_insert {cache : LookupCache} {provider inst : String} {v : Value}
    (h : cache.toValue.Every p) (hv : v.Every p) :
    (cache.insert provider inst v).toValue.Every p := by
  rw [toValue_insert]
  refine Value.every_insert h (Value.every_insert ?_ hv)
  cases hresults : Table.get? cache provider with
  | none => simp
  | some results =>
    exact (Value.every_map _).1 h _ (List.mem_map_of_mem (Table.mem_of_get? hresults))

theorem every_cache_get? {cache : LookupCache} {provider inst : String} {v : Value}
    (h : cache.toValue.Every p) (hv : cache.get? provider inst = some v) : v.Every p := by
  obtain ⟨results, hresults, hv⟩ := Option.bind_eq_some_iff.1 hv
  have hevery := (Value.every_map _).1 h _ (List.mem_map_of_mem (Table.mem_of_get? hresults))
  exact (Value.every_map _).1 hevery _ (Table.mem_of_get? hv)

end Reduction

namespace Coupling

variable {C : Coupling} {s t : State}

structure Directed (C : Coupling) (setting setting' : Setting) : Prop where
  document_eq : ∀ {s t}, C.rel s t → t.document = s.document
  vars_eq : setting'.vars = setting.vars
  limit : setting'.maxDepth = setting.maxDepth ∨ setting.maxDepth ≤ setting'.maxDepth ∧
    ¬ C.strict (.error (.recursionLimit setting.maxDepth))
  cache_eq : ∀ {s t}, C.rel s t → t.cache = s.cache
  resolving_eq : ∀ {s t}, C.rel s t → t.resolving = s.resolving
  scopes_eq : ∀ {s t name rest}, C.trees (.reference (.segment name :: rest)) → C.rel s t →
    t.scopes.findSome? (·.get? name) = s.scopes.findSome? (·.get? name)
  vars : (Value.map setting.vars).Every C.trees
  cache : ∀ {s t}, C.rel s t → s.cache.toValue.Every C.trees
  scopes : ∀ {s t name v}, C.rel s t → s.scopes.findSome? (·.get? name) = some v →
    v.Every C.trees
  unresolved : ∀ {segments}, C.trees (.reference segments) → C.results (.reference segments)
  enter : ∀ {s t path}, C.rel s t → path ∉ s.resolving →
    s.resolving.length < setting.maxDepth →
    C.rel { s with resolving := path :: s.resolving } { t with resolving := path :: t.resolving }
  leave : ∀ {s t s' t'}, C.rel s t → C.rel s' t' →
    C.rel { s' with resolving := s.resolving } { t' with resolving := t.resolving }

structure Guided (C : Coupling) (setting setting' : Setting) : Prop
    extends C.Directed setting setting' where
  lookups_eq : setting'.lookups = setting.lookups
  consult : ∀ {rest lookup provider inst properties},
    C.trees (.reference (.segment "data" :: rest)) →
    setting.lookups.get? provider = some lookup → (Value.map properties).Every C.results →
    C.Sim (fun v _ => v.Every C.trees) (consult lookup provider inst properties)
      fun _ => consult lookup provider inst properties

def LooksUp (C : Coupling) (setting setting' : Setting) (depth : ℕ) (depth' : ℕ → ℕ)
    (reduce : Node → Eval Value) (other : ℕ → Node → Eval Value) : Prop :=
  ∀ {rest}, C.trees (.reference (.segment "data" :: rest)) → ∀ provider inst,
    C.Sim (fun v? _ => ∀ v, v? = some v → v.Every C.trees)
      (dataLookup reduce setting depth provider inst)
      fun i => dataLookup (other i) setting' (depth' i) provider inst

/-- Evaluations that agree on references and find the same at the same locations. -/
structure Agreement (C : Coupling) (setting setting' : Setting) : Prop
    extends C.Located, C.Guided setting setting'

variable {setting setting' : Setting}

section
variable (G : C.Directed setting setting')
include G

theorem Directed.origin?_eq {name : String} {rest : List Node}
    (hr : C.trees (.reference (.segment name :: rest))) (hst : C.rel s t) :
    origin? t name = origin? s name := by
  unfold origin?
  rw [G.scopes_eq hr hst, G.document_eq hst]

theorem Directed.holds_origin? {name : String} {rest : List Node}
    (hr : C.trees (.reference (.segment name :: rest))) {cursor : Cursor} (hst : C.rel s t)
    (hc : origin? s name = some cursor) : cursor.Holds C.trees := by
  unfold origin? at hc
  split at hc
  · rename_i v hv
    cases hc
    exact G.scopes hst hv
  · split at hc
    case h_3 =>
      cases hc
      exact ⟨rest, hr⟩
    case h_4 =>
      split at hc
      · cases hc
        trivial
      · cases hc
    all_goals
      cases hc
      trivial

theorem Directed.withReference {β : Type} {path : String} {post : β → Prop} {a : Eval β}
    {b : ℕ → Eval β} (hst : C.rel s t) (hpath : path ∉ s.resolving)
    (hlimit : s.resolving.length < setting.maxDepth) (hab : C.Sim (fun x _ => post x) a b) :
    C.At s t (fun x _ => post x) (Eval.withReference path a)
      fun i => Eval.withReference path (b i) := by
  intro r s'' hr he
  rw [Eval.outcome_withReference] at hr
  rcases ha : a.outcome { s with resolving := path :: s.resolving } with ⟨r', s'⟩
  rw [ha] at hr
  obtain ⟨rfl, rfl⟩ := Prod.mk.inj hr
  obtain ⟨t', hb, hrel, hadv, hbal, hpost⟩ := hab _ _ (G.enter hst hpath hlimit) _ _ ha he
  have hs : s'.resolving.tail = s.resolving := by rw [hadv.resolving, List.tail_cons]
  have ht : t'.resolving.tail = t.resolving := by rw [hbal.resolving, List.tail_cons]
  refine ⟨{ t' with resolving := t'.resolving.tail }, hb.mono fun i hi => ?_, ?_, ?_, ?_, hpost⟩
  · rw [Eval.outcome_withReference, hi]
  · rw [hs, ht]
    exact G.leave hst hrel
  · exact ⟨⟨hadv.scopes, hs⟩, hadv.document⟩
  · exact ⟨hbal.scopes, ht⟩

end

section
variable {reduce : Node → Eval Value} {other : ℕ → Node → Eval Value} {stored : Node → Prop}
variable (S : C.Settling stored reduce other)
variable {depth : ℕ} {depth' : ℕ → ℕ} (hd : C.Deep depth depth')
include S hd

protected theorem Sim.dataProperties? (provider inst : String) :
    C.Sim (fun p? _ => ∀ properties, p? = some properties →
        (Value.map properties).Every C.results)
      (dataProperties? reduce depth provider inst)
      fun i => dataProperties? (other i) (depth' i) provider inst := by
  intro s t hst
  unfold Reduction.dataProperties?
  refine At.get_bind ?_
  rw [S.document_eq hst]
  cases dataPath? s.document provider inst with
  | none => exact .pure hst (by simp)
  | some path =>
    refine (S.settle hd path s t hst).bind fun _ s' t' hdone hst' _ => ?_
    refine .slot?_bind (S.document_eq hst') (.pure hst' fun properties hproperties => ?_)
    obtain ⟨v, hv, hmap⟩ := Option.bind_eq_some_iff.1 hproperties
    have hevery := hdone v hv
    cases v <;> simp only [Value.map?, reduceCtorEq, Option.some.injEq] at hmap
    rw [← hmap]
    exact hevery

protected theorem Sim.settled (path : Path) :
    C.Sim (fun v? _ => ∀ v, v? = some v → v.Every C.results)
      (do settle reduce depth path; slot? path)
      fun i => (do settle (other i) (depth' i) path; slot? path) := by
  refine (S.settle hd path).bind fun _ s t hdone hst => ?_
  intro r s' ha he
  obtain ⟨rfl, rfl⟩ := Prod.mk.inj ha
  refine ⟨t, .of_forall fun i => ?_, hst, .refl _, .refl t, fun v? hv? v hv => ?_⟩
  · rw [← S.document_eq hst]
    rfl
  · cases hv?
    exact hdone v hv

theorem Guided.looksUp (G : C.Guided setting setting') :
    C.LooksUp setting setting' depth depth' reduce other := by
  intro rest hdata provider inst s t hst
  simp only [dataLookup_eq]
  refine At.get_bind ?_
  rw [G.cache_eq hst]
  cases hcache : s.cache.get? provider inst with
  | some v =>
    refine .pure hst fun w hw => ?_
    cases hw
    exact every_cache_get? (G.cache hst) hcache
  | none =>
    rw [G.lookups_eq]
    cases hlookup : setting.lookups.get? provider with
    | none => exact .pure hst (by simp)
    | some lookup =>
      refine (Sim.dataProperties? S hd provider inst s t hst).bind
        fun properties? s' t' hproperties hst' _ => ?_
      cases properties? with
      | none => exact .pure hst' (by simp)
      | some properties =>
        refine ((G.consult hdata hlookup (hproperties properties rfl)).map ?_) s' t' hst'
        intro v _ hv w hw
        cases hw
        exact hv

end

section
variable {reduce : Node → Eval Value} {other : ℕ → Node → Eval Value}
variable (h : ∀ tree, C.trees tree →
  C.Sim (fun v _ => C.becomes tree v) (reduce tree) fun i => other i tree)
include h

protected theorem Sim.accessor? {segment : Node} (hs : C.trees segment) :
    C.Sim (fun a? _ => ∀ name, segment = .segment name → a? = some (.name name))
      (accessor? reduce segment) fun i => accessor? (other i) segment := by
  unfold Reduction.accessor?
  split
  · refine .pure fun _ name heq => ?_
    cases heq
    rfl
  · rename_i index rest
    have hindex : C.trees index := C.hereditary _ hs index (List.mem_cons_self ..)
    refine (h index hindex).bind fun v s t _ hst => ?_
    split <;> exact .pure hst nofun
  · rename_i hname _
    exact .pure fun _ name heq => absurd heq (hname name)

protected theorem Sim.force {v : Value} (hv : v.Every C.trees) :
    C.Sim (fun w _ => w.Every C.trees) (force reduce v) fun i => force (other i) v := by
  unfold Reduction.force
  split
  · rename_i tree
    refine (h tree ((Value.every_node _).1 hv)).mono fun w _ hw => ?_
    exact (C.every_of_becomes tree w hw).mono C.trees_of_results
  · exact .pure fun _ => hv

variable {depth : ℕ} {depth' : ℕ → ℕ}

section
variable {stored : Node → Prop} (S : C.Settling stored reduce other)
variable (hd : C.Deep depth depth') (G : C.Directed setting setting')
variable (L : C.LooksUp setting setting' depth depth' reduce other)
include S G

section
include L

protected theorem Sim.advance {cursor : Cursor} (hc : cursor.Holds C.trees) {accessor : Accessor}
    (hlocals : cursor = .locals → (∃ name, accessor = .name name) ∨
      ∀ s t, C.rel s t → (Value.map s.document.locals).Every C.trees) :
    C.Sim (fun c? _ => ∀ c, c? = some c → c.Holds C.trees ∧ c ≠ .locals)
      (advance reduce setting depth accessor cursor)
      fun i => advance (other i) setting' (depth' i) accessor cursor := by
  cases cursor with
  | value v =>
    refine (Sim.force h hc).map fun w _ hw c hsome => ?_
    obtain ⟨u, hu, rfl⟩ := Option.map_eq_some_iff.1 hsome
    exact ⟨hw.select? hu, nofun⟩
  | slot path =>
    refine (S.forceSlot path).bind fun _ s t _ hst => ?_
    refine .slot?_bind (S.document_eq hst) ?_
    split
    · refine .pure hst fun c hsome => ?_
      cases hsome
      exact ⟨trivial, nofun⟩
    · exact .pure hst (by simp)
  | locals =>
    intro s t hst
    refine At.get_bind ?_
    rw [S.document_eq hst]
    cases accessor with
    | name name =>
      refine .pure hst fun c hsome => ?_
      obtain ⟨path, _, rfl⟩ := Option.map_eq_some_iff.1 hsome
      exact ⟨trivial, nofun⟩
    | index x =>
      refine .pure hst fun c hsome => ?_
      obtain ⟨u, hu, rfl⟩ := Option.map_eq_some_iff.1 hsome
      have hevery := (hlocals rfl).resolve_left nofun
      exact ⟨(hevery s t hst).select? hu, nofun⟩
  | vars =>
    intro s t hst
    refine At.get_bind ?_
    rw [S.document_eq hst, show variableAt? setting' = variableAt? setting from ?_]
    · exact .pure hst fun c hsome =>
        ⟨holds_variableAt? G.vars hsome, ne_locals_of_variableAt? hsome⟩
    · unfold variableAt?
      rw [G.vars_eq]
  | data =>
    cases accessor with
    | name provider =>
      refine .pure fun _ c hsome => ?_
      cases hsome
      exact ⟨hc, nofun⟩
    | index x => exact .pure (by simp)
  | provider provider =>
    cases accessor with
    | name inst =>
      obtain ⟨rest, hdata⟩ := hc
      refine (L hdata provider inst).map fun v? _ hv c hsome => ?_
      obtain ⟨v, rfl, rfl⟩ := Option.map_eq_some_iff.1 hsome
      exact ⟨hv v rfl, nofun⟩
    | index x => exact .pure (by simp)

end

include hd

protected theorem Sim.finish {cursor : Cursor} (hc : cursor.Holds C.trees) :
    C.Sim (fun v? _ => ∀ v, v? = some v → v.Every C.results)
      (finish reduce setting depth cursor)
      fun i => finish (other i) setting' (depth' i) cursor := by
  have hreduce {v : Value} (hv : v.Every C.trees) :
      C.Sim (fun w? _ => ∀ w, w? = some w → w.Every C.results)
        (do return some (← reduceValue reduce v))
        fun i => do return some (← reduceValue (other i) v) := by
    refine (Sim.reduceValue h hv).map fun w _ hw u hu => ?_
    cases hu
    exact hw
  cases cursor with
  | value v => exact hreduce hc
  | slot path => exact Sim.settled S hd path
  | locals =>
    refine (S.settle hd [.key "locals"]).bind fun _ s t hdone hst => ?_
    refine At.get_bind ?_
    rw [S.document_eq hst]
    have hlocals : (Value.map s.document.locals).Every C.results :=
      every_locals_of_slot fun v hv => hdone v (by rw [Document.slot?_key, hv])
    exact hreduce (hlocals.mono C.trees_of_results) s t hst
  | vars =>
    intro s t hst
    unfold Reduction.finish
    rw [G.vars_eq]
    exact hreduce G.vars s t hst
  | data =>
    intro s t hst
    refine At.get_bind ?_
    rw [G.cache_eq hst]
    exact hreduce (G.cache hst) s t hst
  | provider provider =>
    intro s t hst
    refine At.get_bind ?_
    rw [G.cache_eq hst]
    cases hresults : Table.get? s.cache provider with
    | none => exact .pure hst (by simp)
    | some results =>
      have hmem := List.mem_map_of_mem (f := fun (e : String × Table Value) =>
        (e.1, Value.map e.2)) (Table.mem_of_get? hresults)
      exact hreduce ((Value.every_map _).1 (G.cache hst) _ hmem) s t hst

include L

protected theorem Sim.follow {cursor? : Option Cursor}
    (hc : ∀ cursor, cursor? = some cursor → cursor.Holds C.trees) {segments : List Node}
    (hlocals : cursor? = some .locals → C.ByName segments)
    (hs : ∀ segment ∈ segments, C.trees segment) :
    C.Sim (fun v? _ => ∀ v, v? = some v → v.Every C.results)
      (follow reduce setting depth cursor? segments)
      fun i => follow (other i) setting' (depth' i) cursor? segments := by
  induction segments generalizing cursor? with
  | nil =>
    cases cursor? with
    | none => exact .pure (by simp)
    | some cursor => exact Sim.finish h S hd G (hc cursor rfl)
  | cons segment rest ih =>
    cases cursor? with
    | none => exact .pure (by simp)
    | some cursor =>
      simp only [List.forall_mem_cons] at hs
      refine (Sim.accessor? h hs.1).bind fun accessor? s t haccessor hst => ?_
      cases accessor? with
      | none => exact .pure hst (by simp)
      | some accessor =>
        have hposition (heq : cursor = .locals) : (∃ name, accessor = .name name) ∨
            ∀ s t, C.rel s t → (Value.map s.document.locals).Every C.trees := by
          refine (hlocals (congrArg some heq)).imp_left fun hname => ?_
          obtain ⟨name, rfl⟩ := hname segment rfl
          exact ⟨name, Option.some.inj (haccessor name rfl)⟩
        refine ((Sim.advance h S G L (hc cursor rfl) hposition).bind ?_) s t hst
        intro next s t hnext hst
        exact ih (fun c hc => (hnext c hc).1) (fun hc => absurd rfl (hnext _ hc).2) hs.2 s t hst

theorem Directed.resolveSegments {segments : List Node} (hr : C.trees (.reference segments)) :
    C.Sim (fun v? _ => ∀ v, v? = some v → v.Every C.results)
      (resolveSegments reduce setting depth segments)
      fun i => resolveSegments (other i) setting' (depth' i) segments := by
  have hparts : ∀ segment ∈ segments, C.trees segment := C.hereditary _ hr
  unfold Reduction.resolveSegments
  split
  · exact .pure (by simp)
  · rename_i name rest
    intro s t hst
    refine At.get_bind ?_
    rw [G.origin?_eq hr hst]
    refine Sim.follow h S hd G L (fun cursor hc => G.holds_origin? hr hst hc) (fun hc => ?_)
      (fun segment hmem => hparts segment (List.mem_cons_of_mem _ hmem)) s t hst
    obtain rfl := name_of_origin?_locals hc
    exact S.byName hr
  · rename_i first rest _
    refine (h first (hparts first (List.mem_cons_self ..))).bind fun v s t hv hst => ?_
    refine Sim.follow h S hd G L (fun cursor hc => ?_) (fun hc => ?_)
      (fun segment hmem => hparts segment (List.mem_cons_of_mem _ hmem)) s t hst
    · split at hc
      · cases hc
      · cases hc
        exact (C.every_of_becomes first v hv).mono C.trees_of_results
    · split at hc <;> cases hc

theorem Directed.resolveReference {segments : List Node} (hr : C.trees (.reference segments)) :
    C.Sim C.Result (resolveReference reduce setting depth segments)
      fun i => resolveReference (other i) setting' (depth' i) segments := by
  intro s t hst
  refine At.get_bind ?_
  rw [G.resolving_eq hst]
  dsimp only
  split
  · exact .throw hst _
  · rename_i hpath
    by_cases hlimit : setting.maxDepth ≤ s.resolving.length
    · rw [if_pos hlimit]
      rcases G.limit with heq | hlt
      · simp only [heq, if_pos hlimit]
        exact .throw hst _
      · exact .of_not_strict hlt.2 _
    · have hlimit' : ¬ setting'.maxDepth ≤ s.resolving.length := by
        rcases G.limit with heq | hlt <;> omega
      simp only [if_neg hlimit, if_neg hlimit']
      refine (G.withReference hst (by simpa using hpath) (by omega)
        (G.resolveSegments h S hd L hr)).bind fun v? s' t' hv hst' _ => ?_
      cases v? with
      | some v => exact .pure hst' (hv v rfl)
      | none => exact .pure hst' ((Value.every_node _).2 (G.unresolved hr))

end

theorem Guided.resolveReference {stored : Node → Prop} (G : C.Guided setting setting')
    (S : C.Settling stored reduce other) (hd : C.Deep depth depth') {segments : List Node}
    (hr : C.trees (.reference segments)) :
    C.Sim C.Result (resolveReference reduce setting depth segments)
      fun i => resolveReference (other i) setting' (depth' i) segments :=
  G.toDirected.resolveReference h S hd (G.looksUp S hd) hr

protected theorem Sim.resolveReference (A : C.Agreement setting setting') (hd : C.Deep depth depth')
    {segments : List Node} (hr : C.trees (.reference segments)) :
    C.Sim C.Result (resolveReference reduce setting depth segments)
      fun i => resolveReference (other i) setting' (depth' i) segments :=
  A.toGuided.resolveReference h (A.toLocated.settling h) hd hr

end

end Coupling
end HclEval
