import HclEval.Proofs.Refinement

/-!
`for` expressions. One item after the other is evaluated in a scope of its own, first the
condition, then the key, then the value. What the items make is collected in their order: into a
list, or by keys, of which the one that occurs first comes first.
-/
namespace HclEval

open Reduction

namespace Reduction

/-! Entries collected by their keys. -/

/-- What the values of one key are collected into: into a list, or only the last one stays. -/
def collector : (grouping : Bool) → List Value → Option Value
  | true, values => some (.list values)
  | false, values => values.getLast?

/-- The keys of a table are those of the entries in the order of their first occurrence, and with
each key is what its values are collected into. -/
structure Collected (collect : List Value → Option Value) (entries : List (String × Value))
    (table : Table Value) : Prop where
  keys : table.keys = (entries.map Prod.fst).eraseDups
  get? : ∀ key ∈ table.keys, table.get? key = collect (Table.valuesAt entries key)

theorem Collected.unique {collect : List Value → Option Value} {entries : List (String × Value)}
    {t u : Table Value} (ht : Collected collect entries t) (hu : Collected collect entries u) :
    t = u := by
  have hkeys : t.keys = u.keys := ht.keys.trans hu.keys.symm
  have hnodup : t.keys.Nodup := ht.keys ▸ Table.nodup_eraseDups _
  refine Table.ext_of_nodup hkeys hnodup fun key => ?_
  by_cases hkey : key ∈ t.keys
  · rw [ht.get? key hkey, hu.get? key (hkeys ▸ hkey)]
  · rw [Table.get?_eq_none_iff.mpr hkey, Table.get?_eq_none_iff.mpr (hkeys ▸ hkey)]

theorem groupEntries_concat (entries : List (String × Value)) (key : String) (value : Value) :
    groupEntries (entries ++ [(key, value)]) =
      match (groupEntries entries).get? key with
      | some (.list values) => (groupEntries entries).insert key (.list (values ++ [value]))
      | some _ => groupEntries entries
      | none => (groupEntries entries).insert key (.list [value]) := by
  rw [groupEntries, List.foldl_append]
  rfl

theorem groupEntries_concat_of_get? {entries : List (String × Value)} {key : String}
    (h : (groupEntries entries).get? key = if key ∈ entries.map Prod.fst then
      some (.list (Table.valuesAt entries key)) else none) (value : Value) :
    groupEntries (entries ++ [(key, value)]) =
      (groupEntries entries).insert key (.list (Table.valuesAt entries key ++ [value])) := by
  rw [groupEntries_concat, h]
  by_cases hkey : key ∈ entries.map Prod.fst
  · rw [if_pos hkey]
  · rw [if_neg hkey, Table.valuesAt_eq_nil_iff.mpr hkey, List.nil_append]

theorem get?_groupEntries (entries : List (String × Value)) (key : String) :
    (groupEntries entries).get? key = if key ∈ entries.map Prod.fst then
      some (.list (Table.valuesAt entries key)) else none := by
  induction entries using List.reverseRecOn generalizing key with
  | nil => rfl
  | append_singleton entries e ih =>
    obtain ⟨name, value⟩ := e
    have hmem : key ∈ (entries ++ [(name, value)]).map Prod.fst ↔
        key ∈ entries.map Prod.fst ∨ key = name := by
      rw [List.map_append, List.mem_append, List.map_singleton, List.mem_singleton]
    rw [groupEntries_concat_of_get? (ih name), Table.get?_insert, ih, Table.valuesAt_append,
      Table.valuesAt_singleton]
    simp only [hmem]
    by_cases hkey : name = key
    · subst hkey
      simp
    · have hne : key ≠ name := Ne.symm hkey
      simp only [hkey, hne, or_false, if_false, List.append_nil]

theorem keys_groupEntries (entries : List (String × Value)) :
    (groupEntries entries).keys = (entries.map Prod.fst).eraseDups := by
  induction entries using List.reverseRecOn with
  | nil => rfl
  | append_singleton entries e ih =>
    rw [groupEntries_concat_of_get? (get?_groupEntries entries e.1), Table.keys_insert, ih,
      List.map_append, List.map_singleton, Table.eraseDups_concat]

theorem collected_groupEntries (entries : List (String × Value)) :
    Collected (collector true) entries (groupEntries entries) where
  keys := keys_groupEntries entries
  get? key hkey := by
    rw [keys_groupEntries, List.mem_eraseDups] at hkey
    rw [get?_groupEntries, if_pos hkey, collector]

theorem collected_ofEntries (entries : List (String × Value)) :
    Collected (collector false) entries (Table.ofEntries entries) where
  keys := Table.keys_ofEntries entries
  get? key _ := Table.get?_ofEntries entries key

/-! One item after the other. -/

section
variable {β : Type} (scopes : List (Table Value)) (enter : Value × Value → Table Value)
  (round : State → β → State → Prop)

/-- Items are taken in their order, each in the given scopes and one of its own. -/
inductive Rounds : List (Value × Value) → State → List β → State → Prop
  | done (s : State) : Rounds [] s [] s
  | item {item : Value × Value} {rest : List (Value × Value)} {s s' s'' : State} {made : β}
      {more : List β} (hround : round { s with scopes := enter item :: scopes } made s')
      (hrest : Rounds rest { s' with scopes := scopes } more s'') :
      Rounds (item :: rest) s (made :: more) s''

variable {scopes enter round} {items : List (Value × Value)} {made : List β} {s s' : State}

theorem Rounds.length_eq (h : Rounds scopes enter round items s made s') :
    made.length = items.length := by
  induction h with
  | done => rfl
  | item _ _ ih => simp [ih]

theorem Rounds.mono {round' : State → β → State → Prop}
    (hround : ∀ {s x s'}, round s x s' → round' s x s')
    (h : Rounds scopes enter round items s made s') :
    Rounds scopes enter round' items s made s' := by
  induction h with
  | done s => exact .done s
  | item hfirst _ ih => exact .item (hround hfirst) ih

end

section
variable (reduce : Node → Eval Value)

inductive Tested : Option Node → State → Bool → State → Prop
  | always (s : State) : Tested none s true s
  | condition {condition : Node} {s s' : State} {v : Value}
      (h : (reduce condition).outcome s = (.ok v, s')) : Tested (some condition) s v.truthy s'

inductive ListRound (value : Node) (condition : Option Node) : State → Option Value → State → Prop
  | skipped {s s' : State} (hcondition : Tested reduce condition s false s') :
      ListRound value condition s none s'
  | kept {s s₁ s' : State} {v : Value} (hcondition : Tested reduce condition s true s₁)
      (hvalue : (reduce value).outcome s₁ = (.ok v, s')) : ListRound value condition s (some v) s'

/-- One item of an object: its key is evaluated after its condition, and its value after its key.
Without a key that is a text there is no value. -/
inductive ObjectRound (key value : Node) (condition : Option Node) :
    State → Option (String × Value) → State → Prop
  | skipped {s s' : State} (hcondition : Tested reduce condition s false s') :
      ObjectRound key value condition s none s'
  | dropped {s s₁ s' : State} {k : Value} (hcondition : Tested reduce condition s true s₁)
      (hkey : (reduce key).outcome s₁ = (.ok k, s')) (htext : k.keyText? = none) :
      ObjectRound key value condition s none s'
  | kept {s s₁ s₂ s' : State} {k v : Value} {name : String}
      (hcondition : Tested reduce condition s true s₁)
      (hkey : (reduce key).outcome s₁ = (.ok k, s₂)) (htext : k.keyText? = some name)
      (hvalue : (reduce value).outcome s₂ = (.ok v, s')) :
      ObjectRound key value condition s (some (name, v)) s'

end

section
variable {reduce : Node → Eval Value} {s s' : State}

theorem outcome_holds_iff {condition : Option Node} {b : Bool} :
    (holds reduce condition).outcome s = (.ok b, s') ↔ Tested reduce condition s b s' := by
  constructor
  · intro h
    cases condition with
    | none =>
      cases h
      exact .always s
    | some condition =>
      obtain ⟨v, s₁, hv, h⟩ := Eval.outcome_bind_eq_ok.mp h
      cases h
      exact .condition hv
  · rintro (_ | ⟨h⟩)
    · rfl
    · rw [holds, Eval.outcome_bind_ok h, Eval.outcome_pure]

theorem outcome_listItem_iff {value : Node} {condition : Option Node} {made : Option Value} :
    (listItem reduce value condition).outcome s = (.ok made, s') ↔
      ListRound reduce value condition s made s' := by
  unfold listItem
  constructor
  · intro h
    obtain ⟨b, s₁, hb, h⟩ := Eval.outcome_bind_eq_ok.mp h
    have htested := outcome_holds_iff.mp hb
    cases b with
    | false =>
      cases h
      exact .skipped htested
    | true =>
      obtain ⟨v, s₂, hv, h⟩ := Eval.outcome_bind_eq_ok.mp h
      cases h
      exact .kept htested hv
  · rintro (htested | ⟨htested, hv⟩)
    · rw [Eval.outcome_bind_ok (outcome_holds_iff.mpr htested)]
      rfl
    · rw [Eval.outcome_bind_ok (outcome_holds_iff.mpr htested)]
      exact Eval.outcome_bind_ok hv _

theorem outcome_objectItem_iff {key value : Node} {condition : Option Node}
    {made : Option (String × Value)} :
    (objectItem reduce key value condition).outcome s = (.ok made, s') ↔
      ObjectRound reduce key value condition s made s' := by
  unfold objectItem
  constructor
  · intro h
    obtain ⟨b, s₁, hb, h⟩ := Eval.outcome_bind_eq_ok.mp h
    have htested := outcome_holds_iff.mp hb
    cases b with
    | false =>
      cases h
      exact .skipped htested
    | true =>
      obtain ⟨k, s₂, hk, h⟩ := Eval.outcome_bind_eq_ok.mp h
      cases htext : k.keyText? with
      | none =>
        rw [htext] at h
        cases h
        exact .dropped htested hk htext
      | some name =>
        rw [htext] at h
        obtain ⟨v, s₃, hv, h⟩ := Eval.outcome_bind_eq_ok.mp h
        cases h
        exact .kept htested hk htext hv
  · rintro (htested | ⟨htested, hk, htext⟩ | ⟨htested, hk, htext, hv⟩)
    · rw [Eval.outcome_bind_ok (outcome_holds_iff.mpr htested)]
      rfl
    · rw [Eval.outcome_bind_ok (outcome_holds_iff.mpr htested), if_pos rfl,
        Eval.outcome_bind_ok hk, htext]
      rfl
    · rw [Eval.outcome_bind_ok (outcome_holds_iff.mpr htested), if_pos rfl,
        Eval.outcome_bind_ok hk, htext]
      exact Eval.outcome_bind_ok hv _

end

theorem outcome_withScope_iff {α : Type} {action : Eval α}
    (hbalanced : ∀ s : State, s.Balanced (action.outcome s).2) {scope : Table Value}
    {s s' : State} {r : Except Stop α} :
    (Eval.withScope scope action).outcome s = (r, s') ↔
      ∃ s₁, action.outcome { s with scopes := scope :: s.scopes } = (r, s₁) ∧
        s' = { s₁ with scopes := s.scopes } := by
  have hscopes := (hbalanced { s with scopes := scope :: s.scopes }).scopes
  rw [Eval.outcome_withScope]
  rcases haction : action.outcome { s with scopes := scope :: s.scopes } with ⟨r₁, s₁⟩
  rw [haction] at hscopes
  have htail : s₁.scopes.tail = s.scopes := congrArg List.tail hscopes
  simp only [Prod.mk.injEq, htail]
  constructor
  · rintro ⟨rfl, rfl⟩
    exact ⟨s₁, ⟨rfl, rfl⟩, rfl⟩
  · rintro ⟨_, ⟨rfl, rfl⟩, rfl⟩
    exact ⟨rfl, rfl⟩

theorem outcome_mapM_withScope_iff {β : Type} {enter : Value × Value → Table Value}
    {action : Eval β} {round : State → β → State → Prop}
    (hround : ∀ {s made s'}, action.outcome s = (.ok made, s') ↔ round s made s')
    (hbalanced : ∀ s : State, s.Balanced (action.outcome s).2) (items : List (Value × Value))
    {s s' : State} {made : List β} :
    (items.mapM fun item => Eval.withScope (enter item) action).outcome s = (.ok made, s') ↔
      Rounds s.scopes enter round items s made s' := by
  induction items generalizing s made with
  | nil =>
    constructor
    · intro h
      cases h
      exact .done _
    · rintro ⟨⟩
      rfl
  | cons item rest ih =>
    rw [List.mapM_cons]
    constructor
    · intro h
      obtain ⟨x, s₁, hx, h⟩ := Eval.outcome_bind_eq_ok.mp h
      obtain ⟨more, s₂, hmore, h⟩ := Eval.outcome_bind_eq_ok.mp h
      cases h
      obtain ⟨s₃, hact, rfl⟩ := (outcome_withScope_iff hbalanced).mp hx
      exact .item (hround.mp hact) (ih.mp hmore)
    · rintro (_ | @⟨_, _, _, s₁, _, _, _, hx, hmore⟩)
      have hfirst := (outcome_withScope_iff hbalanced).mpr ⟨s₁, hround.mpr hx, rfl⟩
      have hrest := (ih (s := { s₁ with scopes := s.scopes })).mpr hmore
      rw [Eval.outcome_bind_ok hfirst, Eval.outcome_bind_ok hrest, Eval.outcome_pure]

theorem get?_bindings (keyVariable : Option String) (valueVariable : String) (key value : Value)
    (name : String) :
    (bindings keyVariable valueVariable key value).get? name =
      if name = valueVariable then some value
      else if keyVariable = some name then some key else none := by
  cases keyVariable with
  | none => simp [bindings, Table.insert, Table.get?, eq_comm]
  | some keyName =>
    simp only [bindings, Table.get?_insert, Table.get?, eq_comm, Option.some.injEq]

theorem getElem?_items_list {values : List Value} {items : List (Value × Value)}
    (h : items? (.list values) = some items) (i : ℕ) :
    items[i]? = values[i]?.map fun v => (Value.ofNat i, v) := by
  cases h
  rw [List.getElem?_map, List.getElem?_zipIdx, Nat.zero_add, Option.map_map]
  rfl

theorem getElem?_items_map {entries : Table Value} {items : List (Value × Value)}
    (h : items? (.map entries) = some items) (i : ℕ) :
    items[i]? = entries[i]?.map fun e => (Value.string e.1, e.2) := by
  cases h
  rw [List.getElem?_map]

/-! A round leaves the scopes and the references in progress as they were. -/

section
variable (setting : Setting) (depth : ℕ)

theorem balanced_listItem (value : Node) (condition : Option Node) (s : State) :
    s.Balanced ((listItem (reduceNode setting depth) value condition).outcome s).2 :=
  Coupling.balanced_of_sim (Coupling.refinement_invariant setting)
    (.listItem (fun tree _ => refinement_reduceNode_result setting depth tree) trivial
      fun _ _ => trivial) s

theorem balanced_objectItem (key value : Node) (condition : Option Node) (s : State) :
    s.Balanced ((objectItem (reduceNode setting depth) key value condition).outcome s).2 :=
  Coupling.balanced_of_sim (Coupling.refinement_invariant setting)
    (.objectItem (fun tree _ => refinement_reduceNode_result setting depth tree) trivial trivial
      fun _ _ => trivial) s

end

section
variable {setting : Setting} {depth : ℕ} {keyVariable : Option String} {valueVariable : String}
  {collection value : Node} {condition : Option Node} (grouping : Bool) {s s₀ s' : State}
  {w result : Value} {items : List (Value × Value)}
  (hcollection : (reduceNode setting depth collection).outcome s = (.ok w, s₀))
  (hitems : items? w = some items)
include hcollection hitems

theorem outcome_comprehension_list_iff :
    (reduceNode setting (depth + 1) (.comprehension keyVariable valueVariable collection none value
        condition grouping)).outcome s = (.ok result, s') ↔
      ∃ made, Rounds s.scopes (fun item => bindings keyVariable valueVariable item.1 item.2)
          (ListRound (reduceNode setting depth) value condition) items s₀ made s' ∧
        result = .list (made.filterMap id) := by
  have hbalanced := balanced_listItem setting depth value condition
  rw [← (balanced_reduceNode setting depth hcollection).scopes, reduceNode, reduceStep, comprehend,
    Eval.outcome_bind_ok hcollection, hitems]
  refine Eval.outcome_map_eq_ok.trans (exists_congr fun made => and_congr ?_ eq_comm)
  exact outcome_mapM_withScope_iff outcome_listItem_iff hbalanced items

theorem outcome_comprehension_object_iff {key : Node} :
    (reduceNode setting (depth + 1) (.comprehension keyVariable valueVariable collection (some key)
        value condition grouping)).outcome s = (.ok result, s') ↔
      ∃ made table, Rounds s.scopes (fun item => bindings keyVariable valueVariable item.1 item.2)
          (ObjectRound (reduceNode setting depth) key value condition) items s₀ made s' ∧
        Collected (collector grouping) (made.filterMap id) table ∧ result = .map table := by
  have hcollected (made : List (Option (String × Value))) :
      Collected (collector grouping) (made.filterMap id)
        (if grouping then groupEntries (made.filterMap id)
          else Table.ofEntries (made.filterMap id)) := by
    cases grouping with
    | true => exact collected_groupEntries _
    | false => exact collected_ofEntries _
  have hbalanced := balanced_objectItem setting depth key value condition
  rw [← (balanced_reduceNode setting depth hcollection).scopes, reduceNode, reduceStep, comprehend,
    Eval.outcome_bind_ok hcollection, hitems]
  refine Eval.outcome_map_eq_ok.trans (exists_congr fun made => ?_)
  rw [outcome_mapM_withScope_iff outcome_objectItem_iff hbalanced items]
  constructor
  · rintro ⟨hrounds, rfl⟩
    exact ⟨_, hrounds, hcollected made, rfl⟩
  · rintro ⟨table, hrounds, htable, rfl⟩
    rw [htable.unique (hcollected made)]
    exact ⟨hrounds, rfl⟩

end

end Reduction

/-- A `for` expression over a list or a map takes the items one after the other, each in the
enclosing scopes and one with its own variables, and keeps what they make: the values in order, or
under each key the last value or all values. -/
theorem comprehension_keeps_items (setting : Setting) (depth : ℕ) (keyVariable : Option String)
    (valueVariable : String) (collection value : Node) (condition : Option Node) (grouping : Bool)
    {s s₀ : State} {w : Value} {items : List (Value × Value)}
    (hcollection : (reduceNode setting depth collection).outcome s = (.ok w, s₀))
    (hitems : items? w = some items) :
    let reduce := reduceNode setting depth
    let enter := fun item : Value × Value => bindings keyVariable valueVariable item.1 item.2
    (∀ result s', (reduceNode setting (depth + 1) (.comprehension keyVariable valueVariable
          collection none value condition grouping)).outcome s = (.ok result, s') ↔
        ∃ made, Rounds s.scopes enter (ListRound reduce value condition) items s₀ made s' ∧
          result = .list (made.filterMap id)) ∧
    (∀ key result s', (reduceNode setting (depth + 1) (.comprehension keyVariable valueVariable
          collection (some key) value condition grouping)).outcome s = (.ok result, s') ↔
        ∃ made table,
          Rounds s.scopes enter (ObjectRound reduce key value condition) items s₀ made s' ∧
          Collected (collector grouping) (made.filterMap id) table ∧ result = .map table) ∧
    (∀ values, w = .list values →
      ∀ i : ℕ, items[i]? = values[i]?.map fun v => (Value.ofNat i, v)) ∧
    (∀ entries : Table Value, w = .map entries →
      ∀ i : ℕ, items[i]? = entries[i]?.map fun e => (Value.string e.1, e.2)) ∧
    ∀ item name, (enter item).get? name =
      if name = valueVariable then some item.2
      else if keyVariable = some name then some item.1 else none := by
  intro reduce enter
  refine ⟨fun result s' => outcome_comprehension_list_iff grouping hcollection hitems,
    fun key result s' => outcome_comprehension_object_iff grouping hcollection hitems, ?_, ?_,
    fun item name => get?_bindings keyVariable valueVariable item.1 item.2 name⟩
  · rintro values rfl
    exact getElem?_items_list hitems
  · rintro entries rfl
    exact getElem?_items_map hitems

/-- `{for i, n in ["a", "b", "a"] : n => i...}` -/
theorem comprehension_keeps_items_positions :
    (reduceNode ⟨[], [], [], 8⟩ 3 (.comprehension (some "i") "n"
      (.array [.string "a", .string "b", .string "a"]) (some (.reference [.segment "n"]))
      (.reference [.segment "i"]) none true)).outcome {} =
        (.ok (.map [("a", .list [.ofNat 0, .ofNat 2]), ("b", .list [.ofNat 1])]), {}) := by
  have hkeeps := comprehension_keeps_items ⟨[], [], [], 8⟩ 2 (some "i") "n"
    (.array [.string "a", .string "b", .string "a"]) (.reference [.segment "i"]) none true
    (s := {}) rfl rfl
  have hround (i : ℕ) (text : String) :
      ObjectRound (reduceNode ⟨[], [], [], 8⟩ 2) (.reference [.segment "n"])
        (.reference [.segment "i"]) none
        { scopes := [bindings (some "i") "n" (.ofNat i) (.string text)] }
        (some (text, .ofNat i))
        { scopes := [bindings (some "i") "n" (.ofNat i) (.string text)] } :=
    .kept (.always _) rfl rfl rfl
  refine (hkeeps.2.1 (.reference [.segment "n"]) _ _).mpr
    ⟨[some ("a", .ofNat 0), some ("b", .ofNat 1), some ("a", .ofNat 2)], _, ?_, ⟨rfl, ?_⟩, rfl⟩
  · exact .item (hround 0 "a") (.item (hround 1 "b") (.item (hround 2 "a") (.done _)))
  · simp [Table.keys, collector, Table.get?, Table.valuesAt]

end HclEval
