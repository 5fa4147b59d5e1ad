import HclEval.Proofs.Trees

/-!
Filling in a value: every tree is kept or replaced by a value it may become, and all else stays,
the keys of maps in their order and the lengths of lists included. Writing a value to a location
that held a tree fills in, also when other locations were filled in meanwhile.
-/
namespace HclEval.Value

abbrev Becoming := Node → Value → Prop

mutual

/-- The second value is the first with some of its trees replaced by what they become. -/
def Fills (m : Becoming) : Value → Value → Prop
  | list items, list items' => fillsItems m items items'
  | map entries, map entries' => fillsEntries m entries entries'
  | node tree, w => w = node tree ∨ m tree w
  | null, w => w = null
  | bool b, w => w = bool b
  | number x, w => w = number x
  | string text, w => w = string text
  | type marker, w => w = type marker
  | _, _ => False
termination_by structural value => value

def fillsItems (m : Becoming) : List Value → List Value → Prop
  | [], [] => True
  | v :: rest, w :: rest' => v.Fills m w ∧ fillsItems m rest rest'
  | _, _ => False

def fillsEntries (m : Becoming) : List (String × Value) → List (String × Value) → Prop
  | [], [] => True
  | (key, v) :: rest, (key', w) :: rest' => (key' = key ∧ v.Fills m w) ∧ fillsEntries m rest rest'
  | _, _ => False

end

variable {m : Becoming}

def FillsEntry (m : Becoming) (e e' : String × Value) : Prop := e'.1 = e.1 ∧ e.2.Fills m e'.2

@[simp] theorem fills_null (w : Value) : null.Fills m w ↔ w = null := Iff.rfl
@[simp] theorem fills_bool (b : Bool) (w : Value) : (bool b).Fills m w ↔ w = bool b := Iff.rfl
@[simp] theorem fills_number (x : Number) (w : Value) : (number x).Fills m w ↔ w = number x :=
  Iff.rfl
@[simp] theorem fills_string (text : String) (w : Value) :
    (string text).Fills m w ↔ w = string text := Iff.rfl
@[simp] theorem fills_type (marker : TypeMarker) (w : Value) :
    (type marker).Fills m w ↔ w = type marker := Iff.rfl
@[simp] theorem fills_node (tree : Node) (w : Value) :
    (node tree).Fills m w ↔ w = node tree ∨ m tree w := Iff.rfl

theorem fillsItems_iff (items items' : List Value) :
    fillsItems m items items' ↔ List.Forall₂ (Fills m) items items' := by
  induction items generalizing items' with
  | nil => cases items' <;> simp [fillsItems]
  | cons v rest ih => cases items' <;> simp [fillsItems, ih]

theorem fillsEntries_iff (entries entries' : List (String × Value)) :
    fillsEntries m entries entries' ↔ List.Forall₂ (FillsEntry m) entries entries' := by
  induction entries generalizing entries' with
  | nil => cases entries' <;> simp [fillsEntries]
  | cons e rest ih => cases entries' <;> simp [fillsEntries, FillsEntry, ih]

@[simp] theorem fills_list (items : List Value) (w : Value) :
    (list items).Fills m w ↔ ∃ items', w = list items' ∧ List.Forall₂ (Fills m) items items' := by
  cases w <;> simp [Fills, fillsItems_iff]

@[simp] theorem fills_map (entries : List (String × Value)) (w : Value) :
    (map entries).Fills m w ↔
      ∃ entries', w = map entries' ∧ List.Forall₂ (FillsEntry m) entries entries' := by
  cases w <;> simp [Fills, fillsEntries_iff]

theorem fills_map_map {entries entries' : List (String × Value)} :
    (map entries).Fills m (map entries') ↔ List.Forall₂ (FillsEntry m) entries entries' := by
  simp

theorem Fills.refl (v : Value) : v.Fills m v := by
  induction v using Value.induction with
  | list items ih => simpa using List.forall₂_same.2 ih
  | map entries ih => exact fills_map_map.2 (List.forall₂_same.2 fun e he => ⟨rfl, ih e he⟩)
  | _ => simp

def Becoming.Closed (m : Becoming) : Prop := ∀ tree v w, m tree v → v.Fills m w → m tree w

theorem Fills.trans (hm : m.Closed) {u v w : Value} (huv : u.Fills m v) (hvw : v.Fills m w) :
    u.Fills m w := by
  induction u using Value.induction generalizing v w with
  | list items ih =>
    obtain ⟨items', rfl, first⟩ := (fills_list ..).1 huv
    obtain ⟨items'', rfl, second⟩ := (fills_list ..).1 hvw
    refine (fills_list ..).2 ⟨items'', rfl, ?_⟩
    clear huv hvw
    induction first generalizing items'' with
    | nil => exact second
    | cons head _ tail =>
      cases second with
      | cons head' rest' =>
        exact .cons (ih _ (List.mem_cons_self ..) head head')
          (tail (fun v hv => ih v (List.mem_cons_of_mem _ hv)) _ rest')
  | map entries ih =>
    obtain ⟨entries', rfl, first⟩ := (fills_map ..).1 huv
    obtain ⟨entries'', rfl, second⟩ := (fills_map ..).1 hvw
    refine (fills_map ..).2 ⟨entries'', rfl, ?_⟩
    clear huv hvw
    induction first generalizing entries'' with
    | nil => exact second
    | cons head _ tail =>
      cases second with
      | cons head' rest' =>
        exact .cons ⟨head'.1.trans head.1, ih _ (List.mem_cons_self ..) head.2 head'.2⟩
          (tail (fun e he => ih e (List.mem_cons_of_mem _ he)) _ rest')
  | node tree =>
    rcases (fills_node ..).1 huv with rfl | htree
    · exact hvw
    · exact (fills_node ..).2 (.inr (hm tree v w htree hvw))
  | _ => simp_all

theorem Fills.every {p : Node → Prop} (hm : ∀ tree w, m tree w → w.Every p) {v w : Value}
    (h : v.Fills m w) (hv : v.Every p) : w.Every p := by
  induction v using Value.induction generalizing w with
  | list items ih =>
    obtain ⟨items', rfl, hitems⟩ := (fills_list ..).1 h
    rw [every_list] at hv ⊢
    clear h
    induction hitems with
    | nil => simp
    | cons head _ tail =>
      simp only [List.forall_mem_cons] at ih hv ⊢
      exact ⟨ih.1 head hv.1, tail ih.2 hv.2⟩
  | map entries ih =>
    obtain ⟨entries', rfl, hentries⟩ := (fills_map ..).1 h
    rw [every_map] at hv ⊢
    clear h
    induction hentries with
    | nil => simp
    | cons head _ tail =>
      simp only [List.forall_mem_cons] at ih hv ⊢
      exact ⟨ih.1 head.2 hv.1, tail ih.2 hv.2⟩
  | node tree =>
    rcases (fills_node ..).1 h with rfl | htree
    · exact hv
    · exact hm tree w htree
  | _ => simp_all

/-! Locations in a value that is filled in. -/

theorem fillsEntry_get? {entries entries' : List (String × Value)}
    (h : List.Forall₂ (FillsEntry m) entries entries') (key : String) :
    Option.Rel (Fills m) (Table.get? entries key) (Table.get? entries' key) :=
  Table.rel_get? h key

theorem fills_getElem? {items items' : List Value} (h : List.Forall₂ (Fills m) items items')
    (i : Nat) : Option.Rel (Fills m) items[i]? items'[i]? := by
  induction h generalizing i with
  | nil => exact .none
  | cons head _ ih =>
    cases i with
    | zero => exact .some head
    | succ i => exact ih i

theorem keys_of_fills {entries entries' : List (String × Value)}
    (h : List.Forall₂ (FillsEntry m) entries entries') :
    Table.keys entries' = Table.keys entries := by
  induction h with
  | nil => rfl
  | cons head _ ih => simpa [Table.keys, head.1] using ih

theorem Fills.child? {v w : Value} (h : v.Fills m w) {step : Step} {u : Value}
    (hu : v.child? step = some u) : ∃ u', w.child? step = some u' ∧ u.Fills m u' := by
  cases v <;> cases step <;> simp only [Value.child?, reduceCtorEq] at hu
  case list.index items i =>
    obtain ⟨items', rfl, hitems⟩ := (fills_list ..).1 h
    have related := fills_getElem? hitems i
    rw [hu] at related
    cases hw : items'[i]? <;> rw [hw] at related <;> cases related
    exact ⟨_, hw, ‹_›⟩
  case map.key entries name =>
    obtain ⟨entries', rfl, hentries⟩ := (fills_map ..).1 h
    have related := fillsEntry_get? hentries name
    rw [hu] at related
    cases hw : Table.get? entries' name <;> rw [hw] at related <;> cases related
    exact ⟨_, hw, ‹_›⟩

theorem Fills.at? {v w : Value} (h : v.Fills m w) {path : Path} {u : Value}
    (hu : v.at? path = some u) : ∃ u', w.at? path = some u' ∧ u.Fills m u' := by
  induction path generalizing v w with
  | nil =>
    obtain rfl : v = u := by simpa [Value.at?] using hu
    exact ⟨w, rfl, h⟩
  | cons step rest ih =>
    obtain ⟨c, hc, hu⟩ := Option.bind_eq_some_iff.1 hu
    obtain ⟨c', hc', hcc⟩ := h.child? hc
    obtain ⟨u', hu', huu⟩ := ih hcc hu
    exact ⟨u', by simp [Value.at?, hc', hu'], huu⟩

theorem fillsEntry_getElem? {entries entries' : List (String × Value)}
    (h : List.Forall₂ (FillsEntry m) entries entries') (i : Nat) :
    Option.Rel (FillsEntry m) entries[i]? entries'[i]? := by
  induction h generalizing i with
  | nil => exact .none
  | cons head _ ih =>
    cases i with
    | zero => exact .some head
    | succ i => exact ih i

theorem Fills.ne_node {v w : Value} (h : v.Fills m w) (hv : ∀ tree, v ≠ node tree) :
    ∀ tree, w ≠ node tree := by
  intro tree hw
  subst hw
  cases v
  case node tree' => exact hv tree' rfl
  all_goals simp at h

theorem Fills.select? {v w : Value} (h : v.Fills m w) (hv : ∀ tree, v ≠ node tree)
    (accessor : Accessor) : Option.Rel (Fills m) (v.select? accessor) (w.select? accessor) := by
  cases v
  case list items =>
    obtain ⟨items', rfl, hitems⟩ := (fills_list ..).1 h
    cases accessor with
    | name name => exact .none
    | index x =>
      cases hx : x.index? with
      | none => simp [Value.select?, hx]
      | some i => simpa [Value.select?, hx] using fills_getElem? hitems i
  case map entries =>
    obtain ⟨entries', rfl, hentries⟩ := (fills_map ..).1 h
    cases accessor with
    | name name => exact fillsEntry_get? hentries name
    | index x =>
      cases hx : x.index? with
      | none => simp [Value.select?, hx]
      | some i =>
        have hrel := fillsEntry_getElem? hentries i
        simp only [Value.select?, hx, Option.bind_eq_bind, Option.bind_some]
        generalize entries[i]? = e at hrel
        generalize entries'[i]? = e' at hrel
        cases hrel with
        | none => exact .none
        | some hee => exact .some hee.2
  case node tree => exact absurd rfl (hv tree)
  all_goals
    obtain rfl : w = _ := by simpa using h
    cases accessor <;> exact .none

theorem isSome_eq_of_rel {v? w? : Option Value} (h : Option.Rel (Fills m) v? w?) :
    w?.isSome = v?.isSome := by
  cases h <;> rfl

theorem Fills.stepTo?_eq {v w : Value} (h : v.Fills m w) (hv : ∀ tree, v ≠ node tree)
    (accessor : Accessor) : w.stepTo? accessor = v.stepTo? accessor := by
  cases v
  case list items =>
    obtain ⟨items', rfl, hitems⟩ := (fills_list ..).1 h
    cases accessor <;> simp [Value.stepTo?, hitems.length_eq]
  case map entries =>
    obtain ⟨entries', rfl, hentries⟩ := (fills_map ..).1 h
    cases accessor with
    | name name =>
      have hcontains : Table.contains entries' name = Table.contains entries name :=
        isSome_eq_of_rel (fillsEntry_get? hentries name)
      rw [Value.stepTo?, Value.stepTo?, hcontains]
    | index x =>
      cases hx : x.index? with
      | none => simp [Value.stepTo?, hx]
      | some i =>
        have hrel := fillsEntry_getElem? hentries i
        simp only [Value.stepTo?, hx, Option.bind_eq_bind, Option.bind_some]
        generalize entries[i]? = e at hrel
        generalize entries'[i]? = e' at hrel
        cases hrel with
        | none => rfl
        | some hee => simp [hee.1]
  case node tree => exact absurd rfl (hv tree)
  all_goals
    obtain rfl : w = _ := by simpa using h
    rfl

theorem exists_child?_of_stepTo? {v : Value} {accessor : Accessor} {step : Step}
    (h : v.stepTo? accessor = some step) : ∃ c, v.child? step = some c := by
  cases v <;> cases accessor <;> simp only [Value.stepTo?, reduceCtorEq] at h
  case list.index items x =>
    cases hx : x.index? with
    | none => simp [hx] at h
    | some i =>
      simp only [hx, Option.bind_eq_bind, Option.bind_some] at h
      split at h
      · rename_i hi
        cases h
        exact ⟨_, List.getElem?_eq_getElem hi⟩
      · cases h
  case map.name entries name =>
    split at h
    · rename_i hcontains
      cases h
      exact Option.isSome_iff_exists.1 hcontains
    · cases h
  case map.index entries x =>
    simp only [Option.bind_eq_bind, Option.bind_eq_some_iff] at h
    obtain ⟨i, _, e, he, h⟩ := h
    cases h
    exact Table.exists_get?_of_mem (List.mem_of_getElem? he)

theorem fillsEntry_modify {entries entries' : List (String × Value)}
    (h : List.Forall₂ (FillsEntry m) entries entries') {key : String} {v : Value}
    {f : Value → Value} (hv : Table.get? entries key = some v)
    (hf : ∀ v', v.Fills m v' → v.Fills m (f v')) :
    List.Forall₂ (FillsEntry m) entries (Table.modify entries' key f) := by
  induction h with
  | nil => exact .nil
  | @cons e e' rest rest' head tail ih =>
    obtain ⟨k, u⟩ := e
    obtain ⟨k', u'⟩ := e'
    obtain ⟨rfl, hu⟩ : k' = k ∧ u.Fills m u' := head
    simp only [Table.get?] at hv
    simp only [Table.modify]
    split at hv
    · rename_i hk
      obtain rfl : u = v := by simpa using hv
      simp only [hk, if_true]
      exact .cons ⟨rfl, hf u' hu⟩ tail
    · rename_i hk
      simp only [hk, if_false]
      exact .cons ⟨rfl, hu⟩ (ih hv)

theorem fills_modify {items items' : List Value} (h : List.Forall₂ (Fills m) items items')
    {i : Nat} {v : Value} {f : Value → Value} (hv : items[i]? = some v)
    (hf : ∀ v', v.Fills m v' → v.Fills m (f v')) :
    List.Forall₂ (Fills m) items (items'.modify i f) := by
  induction h generalizing i with
  | nil => simp at hv
  | cons head tail ih =>
    cases i with
    | zero =>
      obtain rfl := Option.some.inj hv
      exact .cons (hf _ head) tail
    | succ i => exact .cons head (ih hv)

theorem Fills.put {v v' w : Value} (h : v.Fills m v') {path : Path} {tree : Node}
    (ht : v.at? path = some (node tree)) (hw : m tree w) : v.Fills m (v'.put path w) := by
  induction path generalizing v v' with
  | nil =>
    obtain rfl : v = node tree := by simpa [Value.at?] using ht
    exact (fills_node ..).2 (.inr (by simpa [Value.put] using hw))
  | cons step rest ih =>
    obtain ⟨c, hc, hrest⟩ := Option.bind_eq_some_iff.1 ht
    cases v <;> cases step <;> simp only [Value.child?, reduceCtorEq] at hc
    case list.index items i =>
      obtain ⟨items', rfl, hitems⟩ := (fills_list ..).1 h
      exact (fills_list ..).2 ⟨_, rfl, fills_modify hitems hc fun c' hcc => ih hcc hrest⟩
    case map.key entries name =>
      obtain ⟨entries', rfl, hentries⟩ := (fills_map ..).1 h
      exact fills_map_map.2 (fillsEntry_modify hentries hc fun c' hcc => ih hcc hrest)

end HclEval.Value

namespace HclEval

theorem Value.at?_put (v w : Value) (path : Path) :
    (v.put path w).at? path = (v.at? path).map fun _ => w := by
  induction path generalizing v with
  | nil => simp [Value.put, Value.at?]
  | cons step rest ih =>
    cases v <;> cases step <;> simp only [Value.put, Value.at?, Value.child?, Option.bind_none,
      Option.map_none]
    case list.index items i =>
      rw [List.getElem?_modify_eq]
      cases h : items[i]? <;> simp [ih]
    case map.key entries name =>
      rw [Table.get?_modify]
      cases h : Table.get? entries name <;> simp [ih]

namespace Document

theorem map_put (document : Document) {path : Path} (h : path ≠ []) (w : Value) :
    Value.map (document.put path w) = (Value.map document).put path w := by
  cases path with
  | nil => exact absurd rfl h
  | cons step rest => cases step <;> simp [Document.put, Value.put, Value.map?]

theorem slot?_put (document : Document) {path : Path} (h : path ≠ []) (w : Value) :
    (document.put path w).slot? path = (document.slot? path).map fun _ => w := by
  rw [slot?, map_put document h, Value.at?_put, slot?]

theorem slot?_key (document : Document) (key : String) :
    slot? document [.key key] = Table.get? document key := by
  simp only [slot?, Value.at?, Value.child?]
  cases Table.get? document key <;> rfl

theorem slot?_append (document : Document) (path : Path) (step : Step) :
    document.slot? (path ++ [step]) = (document.slot? path).bind (·.child? step) := by
  unfold slot?
  generalize Value.map document = v
  induction path generalizing v with
  | nil =>
    simp only [List.nil_append, Value.at?, Option.bind_some]
    cases v.child? step <;> rfl
  | cons first rest ih =>
    simp only [List.cons_append, Value.at?]
    cases v.child? first with
    | none => rfl
    | some c => exact ih c

theorem ne_nil_of_slot?_node {document : Document} {path : Path} {tree : Node}
    (h : document.slot? path = some (.node tree)) : path ≠ [] := by
  rintro rfl
  simp [slot?, Value.at?] at h

end Document
end HclEval
