import HclEval.Proofs.Depth
import HclEval.Proofs.Expressions.Comprehensions
import HclEval.Proofs.IterationVariables

/-!
`for` expressions that hand on what they run over. Every item is read back through a variable, and
on the way out the references that are left in it are evaluated once more, now with the variables
in scope and the reference to the variable in progress. So a collection stays as it is just if all
of them still lead nowhere then.
-/
namespace HclEval

open Reduction

@[simp] theorem Node.pathText_segment (name : String) : pathText [.segment name] = name := by
  simp [pathText, accessText]

namespace Value

mutual

def trees : Value → List Node
  | list items => itemTrees items
  | map entries => entryTrees entries
  | node tree => [tree]
  | _ => []
termination_by structural value => value

def itemTrees : List Value → List Node
  | [] => []
  | value :: rest => value.trees ++ itemTrees rest

def entryTrees : List (String × Value) → List Node
  | [] => []
  | (_, value) :: rest => value.trees ++ entryTrees rest

end

end Value

namespace Reduction

section
variable {reduce : Node → Eval Value}

/-- Trees that one after the other evaluate to themselves. -/
inductive Stay (reduce : Node → Eval Value) : List Node → State → State → Prop
  | done (s : State) : Stay reduce [] s s
  | tree {tree : Node} {rest : List Node} {s s' s'' : State}
      (htree : (reduce tree).outcome s = (.ok (.node tree), s')) (hrest : Stay reduce rest s' s'') :
      Stay reduce (tree :: rest) s s''

theorem stay_append {trees more : List Node} {s s'' : State} :
    Stay reduce (trees ++ more) s s'' ↔ ∃ s', Stay reduce trees s s' ∧ Stay reduce more s' s'' := by
  constructor
  · intro h
    induction trees generalizing s with
    | nil => exact ⟨s, .done s, h⟩
    | cons tree rest ih =>
      obtain _ | ⟨htree, hrest⟩ := h
      obtain ⟨s', hfirst, hmore⟩ := ih hrest
      exact ⟨s', .tree htree hfirst, hmore⟩
  · rintro ⟨s', htrees, hmore⟩
    induction htrees with
    | done => exact hmore
    | tree htree _ ih => exact .tree htree (ih hmore)

theorem outcome_reduceItems_self_iff {items : List Value}
    (h : ∀ v ∈ items, ∀ s s', (reduceValue reduce v).outcome s = (.ok v, s') ↔
      Stay reduce v.trees s s') {s s' : State} :
    (reduceItems reduce items).outcome s = (.ok items, s') ↔
      Stay reduce (Value.itemTrees items) s s' := by
  induction items generalizing s with
  | nil =>
    constructor
    · intro hout
      cases hout
      exact .done _
    · rintro ⟨⟩
      rfl
  | cons v rest ih =>
    simp only [List.forall_mem_cons] at h
    rw [reduceItems, Value.itemTrees, stay_append, Eval.outcome_bind_eq_ok]
    simp only [Eval.outcome_map_eq_ok, List.cons.injEq, ← ih h.2, ← h.1]
    constructor
    · rintro ⟨_, s₁, hv, _, hrest, rfl, rfl⟩
      exact ⟨s₁, hv, hrest⟩
    · rintro ⟨s₁, hv, hrest⟩
      exact ⟨v, s₁, hv, rest, hrest, rfl, rfl⟩

theorem outcome_reduceEntries_self_iff {entries : List (String × Value)}
    (h : ∀ e ∈ entries, ∀ s s', (reduceValue reduce e.2).outcome s = (.ok e.2, s') ↔
      Stay reduce e.2.trees s s') {s s' : State} :
    (reduceEntries reduce entries).outcome s = (.ok entries, s') ↔
      Stay reduce (Value.entryTrees entries) s s' := by
  induction entries generalizing s with
  | nil =>
    constructor
    · intro hout
      cases hout
      exact .done _
    · rintro ⟨⟩
      rfl
  | cons e rest ih =>
    obtain ⟨key, v⟩ := e
    simp only [List.forall_mem_cons] at h
    rw [reduceEntries, Value.entryTrees, stay_append, Eval.outcome_bind_eq_ok]
    simp only [Eval.outcome_map_eq_ok, List.cons.injEq, Prod.mk.injEq, true_and, ← ih h.2, ← h.1]
    constructor
    · rintro ⟨_, s₁, hv, _, hrest, rfl, rfl⟩
      exact ⟨s₁, hv, hrest⟩
    · rintro ⟨s₁, hv, hrest⟩
      exact ⟨v, s₁, hv, rest, hrest, rfl, rfl⟩

theorem outcome_reduceValue_self_iff (v : Value) (s s' : State) :
    (reduceValue reduce v).outcome s = (.ok v, s') ↔ Stay reduce v.trees s s' := by
  induction v using Value.induction generalizing s s' with
  | list items ih =>
    rw [reduceValue, Value.trees, ← outcome_reduceItems_self_iff ih, Eval.outcome_map_eq_ok]
    simp
  | map entries ih =>
    rw [reduceValue, Value.trees, ← outcome_reduceEntries_self_iff ih, Eval.outcome_map_eq_ok]
    simp
  | node tree =>
    rw [reduceValue, Value.trees]
    constructor
    · intro h
      exact .tree h (.done s')
    · rintro (_ | ⟨htree, ⟨⟩⟩)
      exact htree
  | _ =>
    simp only [reduceValue, Value.trees]
    constructor
    · intro h
      cases h
      exact .done _
    · rintro ⟨⟩
      rfl

end

/-! What a variable of a round is read as. -/

section
variable {setting : Setting} {depth : ℕ} {name : String} {s s' : State} {u w : Value}

theorem outcome_resolveSegments_of_bound {reduce : Node → Eval Value}
    (hbound : bound? s.scopes name = some w) :
    (resolveSegments reduce setting depth [.segment name]).outcome s =
      (do return some (← reduceValue reduce w) : Eval (Option Value)).outcome s := by
  rw [outcome_resolveSegments_name, origin?_of_bound hbound]
  rfl

theorem outcome_reference_of_bound_iff (hbound : bound? s.scopes name = some w)
    (hpath : name ∉ s.resolving) (hroom : s.resolving.length < setting.maxDepth) :
    (reduceNode setting (depth + 1) (.reference [.segment name])).outcome s = (.ok u, s') ↔
      ∃ s₁, (reduceValue (reduceNode setting depth) w).outcome
          { s with resolving := name :: s.resolving } = (.ok u, s₁) ∧
        s' = { s₁ with resolving := s.resolving } := by
  have hin : bound? { s with resolving := name :: s.resolving }.scopes name = some w := hbound
  have hresolving :=
    (balanced_reduceValue setting depth w { s with resolving := name :: s.resolving }).resolving
  rw [reduceNode, reduceStep, outcome_resolveReference _ _ _ (by simpa using hpath) hroom,
    Node.pathText_segment, outcome_resolveSegments_of_bound hin, Eval.outcome_bind]
  rcases hvalue : (reduceValue (reduceNode setting depth) w).outcome
    { s with resolving := name :: s.resolving } with ⟨_ | x, s₁⟩
  · simp
  · rw [hvalue] at hresolving
    have htail : s₁.resolving.tail = s.resolving := congrArg List.tail hresolving
    simp [htail, eq_comm]

theorem outcome_reference_of_bound_string {text : String}
    (hbound : bound? s.scopes name = some (.string text)) (hpath : name ∉ s.resolving)
    (hroom : s.resolving.length < setting.maxDepth) :
    (reduceNode setting (depth + 1) (.reference [.segment name])).outcome s =
      (.ok (.string text), s) :=
  (outcome_reference_of_bound_iff hbound hpath hroom).mpr ⟨_, rfl, rfl⟩

/-- The reference to a variable comes to its value as it is: so do, with that reference in
progress, all trees in it. -/
def ReadsBack (reduce : Node → Eval Value) (name : String) (s : State) (w : Value) (s' : State) :
    Prop :=
  ∃ s₁, Stay reduce w.trees { s with resolving := name :: s.resolving } s₁ ∧
    s' = { s₁ with resolving := s.resolving }

theorem ReadsBack.resolving_eq {reduce : Node → Eval Value} (h : ReadsBack reduce name s w s') :
    s'.resolving = s.resolving := by
  obtain ⟨s₁, -, rfl⟩ := h
  rfl

theorem readsBack_iff (hbound : bound? s.scopes name = some w) (hpath : name ∉ s.resolving)
    (hroom : s.resolving.length < setting.maxDepth) :
    (reduceNode setting (depth + 1) (.reference [.segment name])).outcome s = (.ok w, s') ↔
      ReadsBack (reduceNode setting depth) name s w s' := by
  rw [outcome_reference_of_bound_iff hbound hpath hroom, ReadsBack]
  simp only [outcome_reduceValue_self_iff]

end

/-! One round after the other reads its variable, and makes an entry of what it reads. -/

section
variable {σ γ : Type} {scopes : List (Table Value)} {enter : Value × Value → Table Value}
  {read : State → Value → State → Prop} {s s' : State}

theorem rounds_entries_iff {round : State → Option γ → State → Prop} (item : σ → Value × Value)
    (entry : σ × Value → γ) (hread : ∀ {s v s'}, read s v s' → s'.resolving = s.resolving)
    {sources : List σ} (hround : ∀ source ∈ sources, ∀ {s : State} {m s'}, s.resolving = [] →
      (round { s with scopes := enter (item source) :: scopes } m s' ↔
        ∃ v, read { s with scopes := enter (item source) :: scopes } v s' ∧
          m = some (entry (source, v))))
    (hs : s.resolving = []) {made : List (Option γ)} :
    Rounds scopes enter round (sources.map item) s made s' ↔
      ∃ values, Rounds scopes enter read (sources.map item) s values s' ∧
        made = ((sources.zip values).map entry).map some := by
  induction sources generalizing s made with
  | nil =>
    constructor
    · rintro ⟨⟩
      exact ⟨[], .done _, rfl⟩
    · rintro ⟨_, ⟨⟩, rfl⟩
      exact .done _
  | cons source rest ih =>
    rw [List.forall_mem_cons] at hround
    have hnext {v : Value} {s₁ : State}
        (hv : read { s with scopes := enter (item source) :: scopes } v s₁) :
        { s₁ with scopes := scopes }.resolving = [] := (hread hv).trans hs
    constructor
    · rintro (_ | ⟨hfirst, hrest⟩)
      obtain ⟨v, hv, rfl⟩ := (hround.1 hs).mp hfirst
      obtain ⟨values, hvalues, rfl⟩ := (ih hround.2 (hnext hv)).mp hrest
      exact ⟨v :: values, .item hv hvalues, rfl⟩
    · rintro ⟨_, _ | ⟨hv, hrest⟩, rfl⟩
      exact .item ((hround.1 hs).mpr ⟨_, hv, rfl⟩) ((ih hround.2 (hnext hv)).mpr ⟨_, hrest, rfl⟩)

end

section
variable {reduce : Node → Eval Value} {name : String} {s s' : State}

theorem listRound_iff {value : Node} {m : Option Value} :
    ListRound reduce value none s m s' ↔
      ∃ v, (reduce value).outcome s = (.ok v, s') ∧ m = some v := by
  constructor
  · rintro (⟨⟨⟩⟩ | ⟨⟨⟩, hvalue⟩)
    exact ⟨_, hvalue, rfl⟩
  · rintro ⟨v, hvalue, rfl⟩
    exact .kept (.always s) hvalue

theorem objectRound_iff {key value : Node} {m : Option (String × Value)} {text : String}
    (hkey : (reduce key).outcome s = (.ok (.string text), s)) :
    ObjectRound reduce key value none s m s' ↔
      ∃ v, (reduce value).outcome s = (.ok v, s') ∧ m = some (text, v) := by
  constructor
  · rintro (⟨⟨⟩⟩ | ⟨⟨⟩, hk, htext⟩ | ⟨⟨⟩, hk, htext, hvalue⟩)
    · rw [hkey] at hk
      cases hk
      cases htext
    · rw [hkey] at hk
      cases hk
      cases htext
      exact ⟨_, hvalue, rfl⟩
  · rintro ⟨v, hvalue, rfl⟩
    exact .kept (.always s) hkey rfl hvalue

end

section
variable {setting : Setting} {depth : ℕ} {name : String} {s s' : State}
  {scopes : List (Table Value)} {enter : Value × Value → Table Value}

def Reads (setting : Setting) (depth : ℕ) (name : String) (s : State) (v : Value) (s' : State) :
    Prop :=
  (reduceNode setting depth (.reference [.segment name])).outcome s = (.ok v, s')

theorem Reads.resolving_eq {v : Value} (h : Reads setting depth name s v s') :
    s'.resolving = s.resolving := (balanced_reduceNode setting depth h).resolving

theorem bound?_of_get? {scope : Table Value} {w : Value} (h : scope.get? name = some w) :
    bound? (scope :: scopes) name = some w := by
  simp [bound?, h]

theorem rounds_readsBack_iff (hroom : 0 < setting.maxDepth) {items : List (Value × Value)}
    (hbound : ∀ item ∈ items, (enter item).get? name = some item.2) (hs : s.resolving = []) :
    Rounds scopes enter (Reads setting (depth + 1) name) items s (items.map Prod.snd) s' ↔
      Rounds scopes enter (ReadsBack (reduceNode setting depth) name) items s
        (items.map Prod.snd) s' := by
  induction items generalizing s with
  | nil =>
    constructor <;> rintro ⟨⟩ <;> exact .done _
  | cons item rest ih =>
    rw [List.forall_mem_cons] at hbound
    have hread {s₁ : State} :
        Reads setting (depth + 1) name { s with scopes := enter item :: scopes } item.2 s₁ ↔
          ReadsBack (reduceNode setting depth) name { s with scopes := enter item :: scopes }
            item.2 s₁ :=
      readsBack_iff (bound?_of_get? hbound.1) (by simp [hs]) (by simpa [hs] using hroom)
    have hnext {s₁ : State} (hs₁ : s₁.resolving = []) :=
      ih hbound.2 (s := { s₁ with scopes := scopes }) hs₁
    constructor
    · rintro (_ | ⟨hfirst, hrest⟩)
      exact .item (hread.mp hfirst) ((hnext (hfirst.resolving_eq.trans hs)).mp hrest)
    · rintro (_ | ⟨hfirst, hrest⟩)
      exact .item (hread.mpr hfirst) ((hnext (hfirst.resolving_eq.trans hs)).mpr hrest)

theorem rounds_list_iff {items : List (Value × Value)} (hs : s.resolving = [])
    {made : List (Option Value)} :
    Rounds scopes enter (ListRound (reduceNode setting depth) (.reference [.segment name]) none)
        items s made s' ↔
      ∃ values, Rounds scopes enter (Reads setting depth name) items s values s' ∧
        made = values.map some := by
  have hentries : Rounds scopes enter
        (ListRound (reduceNode setting depth) (.reference [.segment name]) none)
        (items.map id) s made s' ↔
      ∃ values, Rounds scopes enter (Reads setting depth name) (items.map id) s values s' ∧
        made = ((items.zip values).map Prod.snd).map some :=
    rounds_entries_iff id Prod.snd Reads.resolving_eq (fun _ _ _ _ _ _ => listRound_iff) hs
  rw [List.map_id] at hentries
  rw [hentries]
  refine exists_congr fun values => and_congr_right fun hread => ?_
  rw [List.map_snd_zip hread.length_eq.le]

theorem rounds_object_iff {keyName : String} (hname : keyName ≠ name) (hroom : 0 < setting.maxDepth)
    {entries : Table Value} (hs : s.resolving = []) {made : List (Option (String × Value))} :
    Rounds scopes (fun item => bindings (some keyName) name item.1 item.2)
        (ObjectRound (reduceNode setting (depth + 1)) (.reference [.segment keyName])
          (.reference [.segment name]) none)
        (entries.map fun e => (.string e.1, e.2)) s made s' ↔
      ∃ values, Rounds scopes (fun item => bindings (some keyName) name item.1 item.2)
          (Reads setting (depth + 1) name) (entries.map fun e => (.string e.1, e.2)) s values s' ∧
        made = ((entries.zip values).map fun p => (p.1.1, p.2)).map some := by
  refine rounds_entries_iff (fun e : String × Value => (.string e.1, e.2))
    (fun p : (String × Value) × Value => (p.1.1, p.2)) Reads.resolving_eq
    (fun e _ s m s' hs => ?_) hs
  have hbound : (bindings (some keyName) name (.string e.1) e.2).get? keyName =
      some (.string e.1) := by
    simp [get?_bindings, hname]
  have hkey : (reduceNode setting (depth + 1) (.reference [.segment keyName])).outcome
        { s with scopes := bindings (some keyName) name (.string e.1) e.2 :: scopes } =
      (.ok (.string e.1),
        { s with scopes := bindings (some keyName) name (.string e.1) e.2 :: scopes }) :=
    outcome_reference_of_bound_string (bound?_of_get? hbound) (by simp [hs])
      (by simpa [hs] using hroom)
  exact objectRound_iff hkey

/-- A `for` expression that makes of a collection the same collection, a list if no variable is
bound to the keys, and otherwise a map. -/
def copy (keyVariable : Option String) (valueVariable : String) (collection : Node) : Node :=
  .comprehension keyVariable valueVariable collection
    (keyVariable.map fun name => .reference [.segment name]) (.reference [.segment valueVariable])
    none false

theorem outcome_copy_list_iff {collection : Node} {s₀ : State} {values : List Value}
    {items : List (Value × Value)} (hs : s.resolving = []) (hroom : 0 < setting.maxDepth)
    (hcollection : (reduceNode setting (depth + 1) collection).outcome s = (.ok (.list values), s₀))
    (hitems : items? (.list values) = some items) :
    (reduceNode setting (depth + 2) (copy none name collection)).outcome s =
        (.ok (.list values), s') ↔
      Rounds s.scopes (fun item => bindings none name item.1 item.2)
        (ReadsBack (reduceNode setting depth) name) items s₀ values s' := by
  have hs₀ : s₀.resolving = [] := (balanced_reduceNode setting _ hcollection).resolving.trans hs
  have hbound : ∀ item ∈ items, (bindings none name item.1 item.2).get? name = some item.2 :=
    fun item _ => by simp [get?_bindings]
  obtain rfl : items.map Prod.snd = values := by
    cases hitems
    rw [List.map_map]
    exact List.zipIdx_map_fst ..
  rw [copy, Option.map_none, outcome_comprehension_list_iff false hcollection hitems,
    ← rounds_readsBack_iff hroom hbound hs₀]
  simp only [rounds_list_iff hs₀, Value.list.injEq]
  constructor
  · rintro ⟨_, ⟨values, hread, rfl⟩, hvalues⟩
    simpa [hvalues] using hread
  · intro hread
    exact ⟨_, ⟨_, hread, rfl⟩, by simp⟩

theorem filterMap_map_some {α : Type} (xs : List α) : (xs.map some).filterMap id = xs := by
  simp

theorem collected_zip_iff {entries : Table Value} (hkeys : entries.keys.Nodup)
    {values : List Value} (hlength : values.length = entries.length) :
    Collected (collector false) ((entries.zip values).map fun p => (p.1.1, p.2)) entries ↔
      values = entries.map Prod.snd := by
  have hfst : ((entries.zip values).map fun p => (p.1.1, p.2)).map Prod.fst =
      entries.map Prod.fst := by
    have hzip : (entries.zip values).map Prod.fst = entries := List.map_fst_zip hlength.ge
    nth_rewrite 2 [← hzip]
    rw [List.map_map, List.map_map]
    rfl
  have hsnd : ((entries.zip values).map fun p => (p.1.1, p.2)).map Prod.snd = values := by
    have hzip : (entries.zip values).map Prod.snd = values := List.map_snd_zip hlength.le
    rw [List.map_map]
    exact hzip
  -- entries with these keys, which are distinct, are collected into themselves
  have hself := collected_ofEntries ((entries.zip values).map fun p => (p.1.1, p.2))
  rw [Table.ofEntries_of_nodup (by rw [Table.keys, hfst]; exact hkeys)] at hself
  constructor
  · intro h
    rw [h.unique hself, hsnd]
  · intro hvalues
    have hentries := List.zip_of_prod hfst (hsnd.trans hvalues)
    rw [← List.zip_of_prod rfl rfl] at hentries
    rwa [hentries] at hself ⊢

theorem outcome_copy_map_iff {keyName : String} (hname : keyName ≠ name) {collection : Node}
    {s₀ : State} {entries : Table Value} (hkeys : entries.keys.Nodup)
    {items : List (Value × Value)} (hs : s.resolving = []) (hroom : 0 < setting.maxDepth)
    (hcollection : (reduceNode setting (depth + 1) collection).outcome s = (.ok (.map entries), s₀))
    (hitems : items? (.map entries) = some items) :
    (reduceNode setting (depth + 2) (copy (some keyName) name collection)).outcome s =
        (.ok (.map entries), s') ↔
      Rounds s.scopes (fun item => bindings (some keyName) name item.1 item.2)
        (ReadsBack (reduceNode setting depth) name) items s₀ (entries.map Prod.snd) s' := by
  have hs₀ : s₀.resolving = [] := (balanced_reduceNode setting _ hcollection).resolving.trans hs
  have hbound : ∀ item ∈ items,
      (bindings (some keyName) name item.1 item.2).get? name = some item.2 :=
    fun item _ => by simp [get?_bindings]
  have hvalues : entries.map Prod.snd = items.map Prod.snd := by
    cases hitems
    rw [List.map_map]
    rfl
  rw [copy, Option.map_some, outcome_comprehension_object_iff false hcollection hitems, hvalues,
    ← rounds_readsBack_iff hroom hbound hs₀, ← hvalues]
  cases hitems
  simp only [rounds_object_iff hname hroom hs₀, Value.map.injEq]
  constructor
  · rintro ⟨_, _, ⟨values, hread, rfl⟩, hcollected, rfl⟩
    have hlength : values.length = entries.length := by simpa using hread.length_eq
    rw [filterMap_map_some, collected_zip_iff hkeys hlength] at hcollected
    rwa [hcollected] at hread
  · intro hread
    refine ⟨_, _, ⟨_, hread, rfl⟩, ?_, rfl⟩
    rw [filterMap_map_some]
    exact (collected_zip_iff hkeys (by simp)).mpr rfl

/-- The collections that are made again with these variables: lists without one for the keys, and
maps with one. -/
inductive Copyable : (keyVariable : Option String) → (valueVariable : String) → Value → Prop
  | list {valueVariable : String} {values : List Value} :
      Copyable none valueVariable (.list values)
  | map {keyName valueVariable : String} {entries : Table Value} (hname : keyName ≠ valueVariable)
      (hkeys : entries.keys.Nodup) : Copyable (some keyName) valueVariable (.map entries)

theorem outcome_copy_iff {keyVariable : Option String} {collection : Node} {s₀ : State} {w : Value}
    {items : List (Value × Value)} (hcopy : Copyable keyVariable name w) (hs : s.resolving = [])
    (hroom : 0 < setting.maxDepth)
    (hcollection : (reduceNode setting (depth + 1) collection).outcome s = (.ok w, s₀))
    (hitems : items? w = some items) :
    (reduceNode setting (depth + 2) (copy keyVariable name collection)).outcome s = (.ok w, s') ↔
      Rounds s.scopes (fun item => bindings keyVariable name item.1 item.2)
        (ReadsBack (reduceNode setting depth) name) items s₀ (items.map Prod.snd) s' := by
  cases hcopy with
  | list =>
    rw [outcome_copy_list_iff hs hroom hcollection hitems]
    cases hitems
    simp [Function.comp_def]
  | map hname hkeys =>
    rw [outcome_copy_map_iff hname hkeys hs hroom hcollection hitems]
    cases hitems
    simp [Function.comp_def]

end

theorem Stay.deepen {setting : Setting} {depth depth' : ℕ} (hdepth : depth ≤ depth')
    {trees : List Node} {s s' : State} (h : Stay (reduceNode setting depth) trees s s') :
    Stay (reduceNode setting depth') trees s s' := by
  induction h with
  | done s => exact .done s
  | tree htree _ ih => exact .tree ((reduceNode_deepens hdepth _).ok htree) ih

end Reduction

open Eval

variable {setting : Setting} {keyVariable : Option String} {valueVariable : String}

/-- Outside of all other `for` expressions the items are read back as they are, one after the
other: deep enough, all references left in an item evaluate to themselves once more. -/
def AllReadBack (setting : Setting) (keyVariable : Option String) (valueVariable : String)
    (items : List (Value × Value)) (s s' : State) : Prop :=
  ∃ depth, Rounds [] (fun item => bindings keyVariable valueVariable item.1 item.2)
    (ReadsBack (reduceNode setting depth) valueVariable) items s (items.map Prod.snd) s'

theorem comesTo_copy_iff {collection : Node} {s s₀ s' : State} {w : Value}
    {items : List (Value × Value)} (hcopy : Copyable keyVariable valueVariable w)
    (hscopes : s.scopes = []) (hresolving : s.resolving = []) (hroom : 0 < setting.maxDepth)
    (hcollection : ComesTo (reduceNode setting · collection) s (.ok w) s₀)
    (hitems : items? w = some items) :
    ComesTo (reduceNode setting · (copy keyVariable valueVariable collection)) s (.ok w) s' ↔
      AllReadBack setting keyVariable valueVariable items s₀ s' := by
  obtain ⟨depth, hcollection⟩ := hcollection
  -- the items are read back two levels below the expression, one below its collection
  constructor
  · rintro ⟨depth', hout⟩
    have hdeep : depth ≤ max depth depth' + 1 := by omega
    have hdeep' : depth' ≤ max depth depth' + 2 := by omega
    have hcollection' := (reduceNode_deepens hdeep _).ok hcollection
    have hout' := (reduceNode_deepens hdeep' _).ok hout
    have hrounds := (outcome_copy_iff hcopy hresolving hroom hcollection' hitems).mp hout'
    rw [hscopes] at hrounds
    exact ⟨_, hrounds⟩
  · rintro ⟨depth', hrounds⟩
    have hdeep : depth ≤ max depth depth' + 1 := by omega
    have hcollection' := (reduceNode_deepens hdeep _).ok hcollection
    have hrounds' : Rounds s.scopes
        (fun item => bindings keyVariable valueVariable item.1 item.2)
        (ReadsBack (reduceNode setting (max depth depth')) valueVariable) items s₀
        (items.map Prod.snd) s' := by
      rw [hscopes]
      refine hrounds.mono ?_
      rintro s x s' ⟨s₁, hstay, rfl⟩
      exact ⟨s₁, hstay.deepen (by omega), rfl⟩
    exact ⟨_, (outcome_copy_iff hcopy hresolving hroom hcollection' hitems).mpr hrounds'⟩

/-- A reference that leads nowhere by its first name, which is no variable, no namespace and no
entry of the document, and that is not spelled like the variable. -/
inductive Undeclared (keyVariable : Option String) (valueVariable : String) (document : Document) :
    Node → Prop
  | intro {name : String} {rest : List Node} (hkey : keyVariable ≠ some name)
      (hvalue : name ≠ valueVariable) (hnamespace : name ∉ ["local", "var", "data"])
      (hdocument : Table.contains document name = false)
      (hpath : Node.pathText (.segment name :: rest) ≠ valueVariable) :
      Undeclared keyVariable valueVariable document (.reference (.segment name :: rest))

theorem outcome_undeclared {depth : ℕ} {tree : Node} {s : State} {key value : Value}
    (h : Undeclared keyVariable valueVariable s.document tree)
    (hscopes : s.scopes = [bindings keyVariable valueVariable key value])
    (hresolving : s.resolving = [valueVariable]) (hroom : 1 < setting.maxDepth) :
    (reduceNode setting (depth + 1) tree).outcome s = (.ok (.node tree), s) := by
  obtain ⟨hkey, hvalue, hnamespace, hdocument, hpath⟩ := h
  rename_i name rest
  have horigin : origin? s name = none := by
    have hbindings : (bindings keyVariable valueVariable key value).get? name = none := by
      rw [get?_bindings, if_neg hvalue, if_neg hkey]
    simp only [List.mem_cons, List.not_mem_nil, or_false, not_or] at hnamespace
    simp [origin?, hscopes, hbindings, hnamespace, hdocument]
  have hsegments (resolving : List String) :
      (resolveSegments (reduceNode setting depth) setting depth (.segment name :: rest)).outcome
        { s with resolving := resolving } = (.ok none, { s with resolving := resolving }) := by
    have horigin' : origin? { s with resolving := resolving } name = none := horigin
    rw [outcome_resolveSegments_name, horigin', outcome_follow_none]
  rw [reduceNode, reduceStep, outcome_resolveReference _ _ _ (by simpa [hresolving] using hpath)
    (by simpa [hresolving] using hroom), hsegments]
  rfl

theorem stay_undeclared {depth : ℕ} {trees : List Node} {s : State} {key value : Value}
    (h : ∀ tree ∈ trees,
      1 < setting.maxDepth ∧ Undeclared keyVariable valueVariable s.document tree)
    (hscopes : s.scopes = [bindings keyVariable valueVariable key value])
    (hresolving : s.resolving = [valueVariable]) :
    Stay (reduceNode setting (depth + 1)) trees s s := by
  induction trees with
  | nil => exact .done s
  | cons tree rest ih =>
    rw [List.forall_mem_cons] at h
    exact .tree (outcome_undeclared h.1.2 hscopes hresolving h.1.1) (ih h.2)

theorem allReadBack_undeclared {items : List (Value × Value)} {s : State} (hscopes : s.scopes = [])
    (hresolving : s.resolving = []) (h : ∀ item ∈ items, ∀ tree ∈ item.2.trees,
      1 < setting.maxDepth ∧ Undeclared keyVariable valueVariable s.document tree) :
    AllReadBack setting keyVariable valueVariable items s s := by
  refine ⟨1, ?_⟩
  induction items with
  | nil => exact .done s
  | cons item rest ih =>
    rw [List.forall_mem_cons] at h
    have hs : { s with scopes := [] } = s := by rw [← hscopes]
    have hround : ReadsBack (reduceNode setting 1) valueVariable
        { s with scopes := [bindings keyVariable valueVariable item.1 item.2] } item.2
        { s with scopes := [bindings keyVariable valueVariable item.1 item.2] } :=
      ⟨_, stay_undeclared h.1 rfl (by simp [hresolving]), rfl⟩
    exact .item hround (by simpa only [hs] using ih h.2)

/-- A `for` expression that makes a collection again keeps it if and only if its items are read back
as they are, in particular if no name in them means anything there. -/
theorem copy_keeps_iff (setting : Setting) {keyVariable : Option String} {valueVariable : String}
    {collection : Node} {s s₀ : State} {w : Value} {items : List (Value × Value)}
    (hcopy : Copyable keyVariable valueVariable w) (hscopes : s.scopes = [])
    (hresolving : s.resolving = []) (hroom : 0 < setting.maxDepth)
    (hcollection : ComesTo (reduceNode setting · collection) s (.ok w) s₀)
    (hitems : items? w = some items) :
    (∀ s', ComesTo (reduceNode setting · (copy keyVariable valueVariable collection)) s (.ok w) s' ↔
      AllReadBack setting keyVariable valueVariable items s₀ s') ∧
    ((∀ item ∈ items, ∀ tree ∈ item.2.trees,
        1 < setting.maxDepth ∧ Undeclared keyVariable valueVariable s₀.document tree) →
      ComesTo (reduceNode setting · (copy keyVariable valueVariable collection)) s (.ok w) s₀) := by
  have hkeeps {s' : State} : ComesTo (reduceNode setting · (copy keyVariable valueVariable
      collection)) s (.ok w) s' ↔ AllReadBack setting keyVariable valueVariable items s₀ s' :=
    comesTo_copy_iff hcopy hscopes hresolving hroom hcollection hitems
  refine ⟨fun s' => hkeeps, fun h => hkeeps.mpr ?_⟩
  obtain ⟨depth, hcollection⟩ := hcollection
  have hbalanced := balanced_reduceNode setting depth hcollection
  exact allReadBack_undeclared (hbalanced.scopes.trans hscopes)
    (hbalanced.resolving.trans hresolving) h

/-- `[for v in [missing, "b"] : v]` -/
theorem copy_keeps_iff_missing :
    let collection := Node.array [.reference [.segment "missing"], .string "b"]
    ComesTo (reduceNode ⟨[], [], [], 2⟩ · (copy none "v" collection)) {}
      (.ok (.list [.node (.reference [.segment "missing"]), .string "b"])) {} := by
  intro collection
  have hcollection : ComesTo (reduceNode ⟨[], [], [], 2⟩ · collection) {}
      (.ok (.list [.node (.reference [.segment "missing"]), .string "b"])) {} := ⟨2, rfl⟩
  have hundeclared : Undeclared none "v" [] (.reference [.segment "missing"]) :=
    .intro nofun (by decide) (by decide) rfl (by decide)
  refine (copy_keeps_iff ⟨[], [], [], 2⟩ .list rfl rfl (by decide) hcollection rfl).2 ?_
  simpa [Value.trees, Value.ofNat, Node.string, List.zipIdx] using hundeclared

def homonymousList : Node := .array [.reference [.segment "v"]]

/-- The reference is taken for a cycle on the way out. -/
theorem not_copy_keeps :
    (¬ ∀ setting keyVariable valueVariable collection s s₀ w,
      Copyable keyVariable valueVariable w → s.scopes = [] → s.resolving = [] →
        0 < setting.maxDepth → ComesTo (reduceNode setting · collection) s (.ok w) s₀ →
          ∃ s', ComesTo (reduceNode setting · (copy keyVariable valueVariable collection)) s
            (.ok w) s') ∧
      (run ⟨[], [], [], 64⟩ [] [.named "x" [copy none "v" homonymousList] none]).1 =
        .error (.error (.cyclicReference "v")) := by
  refine ⟨fun h => ?_, by decide +kernel⟩
  have hcollection : ComesTo (reduceNode ⟨[], [], [], 64⟩ · homonymousList) {}
      (.ok (.list [.node (.reference [.segment "v"])])) {} := ⟨2, rfl⟩
  obtain ⟨s', hkeeps⟩ := h _ none "v" _ _ _ _ .list rfl rfl (by decide) hcollection
  obtain ⟨depth, _ | ⟨⟨s₁, _ | ⟨hread, -⟩, -⟩, -⟩⟩ :=
    (comesTo_copy_iff .list rfl rfl (by decide) hcollection rfl).mp hkeeps
  cases depth with
  | zero => cases hread
  | succ depth =>
    rw [reduceNode, reduceStep, outcome_resolveReference_of_mem _ _ _ (by simp)] at hread
    cases hread

end HclEval
