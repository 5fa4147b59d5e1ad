import HclEval.Table
import Mathlib.Data.List.Forall2
import Mathlib.Data.List.Induction
import Mathlib.Data.List.Nodup

/-!
Tables with string keys: what is found in them, and what setting, changing and merging entries does
to the entries and to the order of the keys.
-/
namespace HclEval.Table

variable {α : Type}

theorem mem_of_get? {t : Table α} {key : String} {value : α} (h : t.get? key = some value) :
    (key, value) ∈ t := by
  induction t with
  | nil => simp [get?] at h
  | cons e rest ih =>
    obtain ⟨k, v⟩ := e
    simp only [get?] at h
    split at h
    · simp_all
    · exact List.mem_cons_of_mem _ (ih h)

theorem exists_get?_of_mem {t : Table α} {e : String × α} (h : e ∈ t) :
    ∃ value, t.get? e.1 = some value := by
  induction t with
  | nil => simp at h
  | cons e' rest ih =>
    by_cases hk : e'.1 = e.1
    · exact ⟨e'.2, by simp [get?, hk]⟩
    · have hmem : e ∈ rest := (List.mem_cons.1 h).resolve_left fun heq => hk (by rw [heq])
      obtain ⟨value, hvalue⟩ := ih hmem
      exact ⟨value, by simpa [get?, hk] using hvalue⟩

theorem mem_keys_of_get? {t : Table α} {key : String} {value : α} (h : t.get? key = some value) :
    key ∈ t.keys := List.mem_map_of_mem (mem_of_get? h)

theorem contains_iff_mem_keys {t : Table α} {key : String} :
    t.contains key = true ↔ key ∈ t.keys := by
  constructor
  · intro h
    obtain ⟨value, hvalue⟩ := Option.isSome_iff_exists.1 h
    exact mem_keys_of_get? hvalue
  · intro h
    obtain ⟨e, he, rfl⟩ := List.mem_map.1 h
    obtain ⟨value, hvalue⟩ := exists_get?_of_mem he
    rw [contains, hvalue, Option.isSome_some]

theorem get?_eq_none_iff {t : Table α} {key : String} : t.get? key = none ↔ key ∉ t.keys := by
  rw [← contains_iff_mem_keys, contains, Bool.not_eq_true, Option.isSome_eq_false_iff,
    Option.isNone_iff_eq_none]

theorem get?_of_mem {t : Table α} (h : t.keys.Nodup) {e : String × α} (he : e ∈ t) :
    t.get? e.1 = some e.2 := by
  induction t with
  | nil => cases he
  | cons entry rest ih =>
    obtain ⟨name, v⟩ := entry
    simp only [keys, List.map_cons, List.nodup_cons] at h
    rcases List.mem_cons.mp he with rfl | he
    · exact if_pos rfl
    · have hne : name ≠ e.1 := fun heq => h.1 (heq ▸ List.mem_map_of_mem he)
      rw [get?, if_neg hne]
      exact ih h.2 he

theorem insert_of_notMem {t : Table α} {key : String} (h : key ∉ t.keys) (value : α) :
    t.insert key value = t ++ [(key, value)] := by
  induction t with
  | nil => rfl
  | cons e rest ih =>
    obtain ⟨k, v⟩ := e
    simp only [keys, List.map_cons, List.mem_cons, not_or] at h
    rw [insert, if_neg (Ne.symm h.1), ih h.2, List.cons_append]

theorem insert_of_get? {t : Table α} {key : String} {value : α} (h : t.get? key = some value) :
    t.insert key value = t := by
  induction t with
  | nil => cases h
  | cons e rest ih =>
    obtain ⟨k, v⟩ := e
    by_cases hk : k = key
    · simp_all [get?, insert]
    · simp only [get?, if_neg hk] at h
      simp only [insert, if_neg hk, ih h]

theorem insert_insert (t : Table α) (key : String) (v w : α) :
    (t.insert key v).insert key w = t.insert key w := by
  induction t with
  | nil => simp [insert]
  | cons e rest ih =>
    obtain ⟨k, u⟩ := e
    by_cases hk : k = key <;> simp [insert, hk, ih]

theorem keys_insert (t : Table α) (key : String) (value : α) :
    (t.insert key value).keys = if key ∈ t.keys then t.keys else t.keys ++ [key] := by
  split
  · rename_i hmem
    exact keys_insert_of_contains value (contains_iff_mem_keys.mpr hmem)
  · rename_i hmem
    rw [insert_of_notMem hmem, keys, List.map_append]
    rfl

theorem keys_insert_of_get?_none {t : Table α} {key : String} (h : t.get? key = none) (value : α) :
    (t.insert key value).keys = t.keys ++ [key] := by
  rw [keys_insert, if_neg (get?_eq_none_iff.mp h)]

theorem nodup_keys_insert {t : Table α} (ht : t.keys.Nodup) (key : String) (value : α) :
    (t.insert key value).keys.Nodup := by
  rw [keys_insert]
  split
  · exact ht
  · rename_i hfresh
    have hapart : t.keys.Disjoint [key] := List.disjoint_singleton.mpr hfresh
    exact ht.append (List.nodup_singleton key) hapart

theorem mem_insert {t : Table α} {key : String} {value : α} {e : String × α}
    (h : e ∈ insert t key value) : e = (key, value) ∨ e ∈ t := by
  induction t with
  | nil => simpa [insert] using h
  | cons e' rest ih =>
    obtain ⟨k, v⟩ := e'
    simp only [insert] at h
    split at h
    · rename_i hk
      subst hk
      rcases List.mem_cons.mp h with h | h
      · exact .inl h
      · exact .inr (List.mem_cons_of_mem _ h)
    · rcases List.mem_cons.mp h with rfl | h
      · exact .inr (List.mem_cons_self ..)
      · exact (ih h).imp_right (List.mem_cons_of_mem _)

theorem mem_modify {t : Table α} {key : String} {f : α → α} {e : String × α}
    (h : e ∈ modify t key f) : e ∈ t ∨ ∃ v, (key, v) ∈ t ∧ e = (key, f v) := by
  induction t with
  | nil => cases h
  | cons entry rest ih =>
    obtain ⟨k, v⟩ := entry
    simp only [modify] at h
    split at h
    · rename_i hk
      subst hk
      rcases List.mem_cons.1 h with rfl | h
      · exact .inr ⟨v, List.mem_cons_self .., rfl⟩
      · exact .inl (List.mem_cons_of_mem _ h)
    · rcases List.mem_cons.1 h with rfl | h
      · exact .inl (List.mem_cons_self ..)
      · rcases ih h with h | ⟨u, hu, rfl⟩
        · exact .inl (List.mem_cons_of_mem _ h)
        · exact .inr ⟨u, List.mem_cons_of_mem _ hu, rfl⟩

theorem get?_modify (t : Table α) (key : String) (f : α → α) :
    (modify t key f).get? key = (t.get? key).map f := by
  induction t with
  | nil => rfl
  | cons e rest ih =>
    obtain ⟨k, v⟩ := e
    by_cases h : k = key <;> simp [modify, get?, h, ih]

theorem get?_modify_ne (t : Table α) {key key' : String} (h : key ≠ key')
    (f : α → α) : (modify t key f).get? key' = t.get? key' := by
  induction t with
  | nil => rfl
  | cons e rest ih =>
    obtain ⟨k, v⟩ := e
    by_cases hk : k = key
    · simp [modify, get?, hk, h]
    · simp [modify, get?, hk, ih]

theorem modify_insert (t : Table α) (key : String) (v : α) (f : α → α) :
    (t.insert key v).modify key f = t.insert key (f v) := by
  induction t with
  | nil => simp [insert, modify]
  | cons entry rest ih =>
    obtain ⟨k, u⟩ := entry
    by_cases hk : k = key
    · simp [insert, modify, hk]
    · simpa [insert, modify, hk] using ih

theorem modify_insert_ne (t : Table α) {key key' : String} (h : key ≠ key') (v : α) (f : α → α) :
    (t.insert key v).modify key' f = (t.modify key' f).insert key v := by
  induction t with
  | nil => simp [insert, modify, h]
  | cons entry rest ih =>
    obtain ⟨k, u⟩ := entry
    by_cases hk : k = key
    · subst hk
      simp [insert, modify, h]
    · by_cases hk' : k = key'
      · simp [insert, modify, hk', Ne.symm h]
      · simp [insert, modify, hk, hk', ih]

theorem merge_cons (t : Table α) (key : String) (value : α) (rest : Table α) :
    t.merge ((key, value) :: rest) = (t.insert key value).merge rest := rfl

theorem modify_merge {key : String} (t : Table α) {u : Table α} (h : key ∉ u.keys) (f : α → α) :
    (t.merge u).modify key f = (t.modify key f).merge u := by
  induction u generalizing t with
  | nil => rfl
  | cons e rest ih =>
    obtain ⟨k, v⟩ := e
    simp only [keys, List.map_cons, List.mem_cons, not_or] at h
    rw [merge_cons, merge_cons, ih _ h.2, modify_insert_ne t (Ne.symm h.1)]

theorem merge_modify {key : String} (t : Table α) {u : Table α} (hdistinct : u.keys.Nodup)
    (hkey : key ∈ u.keys) (f : α → α) : t.merge (u.modify key f) = (t.merge u).modify key f := by
  induction u generalizing t with
  | nil => cases hkey
  | cons e rest ih =>
    obtain ⟨k, v⟩ := e
    simp only [keys, List.map_cons, List.nodup_cons, List.mem_cons] at hdistinct hkey
    by_cases hk : k = key
    · subst hk
      rw [modify, if_pos rfl, merge_cons, merge_cons, modify_merge _ hdistinct.1, modify_insert]
    · rw [modify, if_neg hk, merge_cons, merge_cons]
      exact ih _ hdistinct.2 (hkey.resolve_left (Ne.symm hk))

theorem foldl_merge_modify {key : String} (t : Table α) {tables : List (Table α)}
    (h : ∀ u ∈ tables, key ∉ u.keys) (f : α → α) :
    tables.foldl merge (t.modify key f) = (tables.foldl merge t).modify key f := by
  induction tables generalizing t with
  | nil => rfl
  | cons u rest ih =>
    obtain ⟨hfirst, hrest⟩ := List.forall_mem_cons.mp h
    rw [List.foldl_cons, List.foldl_cons, ← modify_merge t hfirst, ih _ hrest]

theorem mem_merge {t u : Table α} {e : String × α} (h : e ∈ merge t u) : e ∈ t ∨ e ∈ u := by
  induction u generalizing t with
  | nil => exact .inl h
  | cons e' rest ih =>
    obtain ⟨k, v⟩ := e'
    rw [merge_cons] at h
    rcases ih h with h | h
    · rcases mem_insert h with rfl | h
      · exact .inr (List.mem_cons_self ..)
      · exact .inl h
    · exact .inr (List.mem_cons_of_mem _ h)

theorem merge_of_nodup {t u : Table α} (h : (t ++ u).keys.Nodup) : t.merge u = t ++ u := by
  induction u generalizing t with
  | nil => rw [merge, List.foldl_nil, List.append_nil]
  | cons e rest ih =>
    obtain ⟨key, value⟩ := e
    have hfresh : key ∉ t.keys := by
      intro hmem
      simp only [keys, List.map_append, List.map_cons] at h
      exact (List.nodup_append.mp h).2.2 key hmem key (List.mem_cons_self ..) rfl
    have hassoc : t ++ [(key, value)] ++ rest = t ++ (key, value) :: rest := by
      rw [List.append_assoc, List.singleton_append]
    rw [merge_cons, insert_of_notMem hfresh, ← hassoc]
    exact ih (by rwa [hassoc])

theorem ofEntries_of_nodup {t : Table α} (h : t.keys.Nodup) : ofEntries t = t :=
  merge_of_nodup (t := []) h

theorem ext_of_nodup {t u : Table α} (hkeys : t.keys = u.keys) (ht : t.keys.Nodup)
    (h : ∀ key, t.get? key = u.get? key) : t = u := by
  induction t generalizing u with
  | nil =>
    cases u with
    | nil => rfl
    | cons _ _ => cases hkeys
  | cons e rest ih =>
    obtain ⟨k, v⟩ := e
    cases u with
    | nil => cases hkeys
    | cons e' rest' =>
      obtain ⟨k', v'⟩ := e'
      obtain ⟨rfl, hrest⟩ : k = k' ∧ keys rest = keys rest' := by simpa [keys] using hkeys
      simp only [keys, List.map_cons, List.nodup_cons] at ht
      have hv : some v = some v' := by simpa [get?] using h k
      rw [Option.some.inj hv, ih hrest ht.2 fun key => ?_]
      by_cases hk : k = key
      · subst hk
        rw [get?_eq_none_iff.mpr ht.1, get?_eq_none_iff.mpr (hrest ▸ ht.1)]
      · simpa [get?, hk] using h key

theorem find?_bind_get? (tables : List (Table α)) (key : String) :
    (tables.find? (contains · key)).bind (get? · key) = tables.findSome? (get? · key) := by
  induction tables with
  | nil => rfl
  | cons t rest ih =>
    rw [List.find?_cons, List.findSome?_cons, contains]
    cases hget : t.get? key with
    | none => exact ih
    | some v => exact hget

theorem rel_get? {β : Type} {R : α → β → Prop} {t : Table α} {u : Table β}
    (h : List.Forall₂ (fun e e' => e'.1 = e.1 ∧ R e.2 e'.2) t u) (key : String) :
    Option.Rel R (t.get? key) (u.get? key) := by
  induction h with
  | nil => exact .none
  | @cons e e' rest rest' head _ ih =>
    obtain ⟨k, v⟩ := e
    obtain ⟨k', v'⟩ := e'
    obtain ⟨rfl, hv⟩ : k' = k ∧ R v v' := head
    simp only [get?]
    split
    · exact .some hv
    · exact ih

/-! Entries that are collected one after the other, several of which may have the same key. -/

def valuesAt (entries : List (String × α)) (key : String) : List α :=
  (entries.filter (·.1 = key)).map Prod.snd

theorem valuesAt_append (entries more : List (String × α)) (key : String) :
    valuesAt (entries ++ more) key = valuesAt entries key ++ valuesAt more key := by
  simp [valuesAt]

theorem valuesAt_singleton (key key' : String) (value : α) :
    valuesAt [(key, value)] key' = if key = key' then [value] else [] := by
  by_cases h : key = key' <;> simp [valuesAt, h]

theorem valuesAt_eq_nil_iff {entries : List (String × α)} {key : String} :
    valuesAt entries key = [] ↔ key ∉ entries.map Prod.fst := by
  rw [valuesAt, List.map_eq_nil_iff, List.filter_eq_nil_iff]
  constructor
  · intro h hmem
    obtain ⟨e, he, rfl⟩ := List.mem_map.mp hmem
    exact h e he (decide_eq_true rfl)
  · intro h e he hkey
    exact h (of_decide_eq_true hkey ▸ List.mem_map_of_mem he)

theorem eraseDups_concat (names : List String) (name : String) :
    (names ++ [name]).eraseDups =
      if name ∈ names.eraseDups then names.eraseDups else names.eraseDups ++ [name] := by
  rw [List.eraseDups_append]
  by_cases h : name ∈ names <;> simp [List.removeAll, List.eraseDups_cons, h]

theorem nodup_eraseDups (names : List String) : names.eraseDups.Nodup := by
  induction names using List.reverseRecOn with
  | nil => exact List.nodup_nil
  | append_singleton names name ih =>
    rw [eraseDups_concat]
    split
    · exact ih
    · rename_i hfresh
      exact ih.append (List.nodup_singleton name) (List.disjoint_singleton.mpr hfresh)

theorem eraseDups_append_eraseDups (names more : List String) :
    (names ++ more.eraseDups).eraseDups = (names ++ more).eraseDups := by
  induction more using List.reverseRecOn with
  | nil => rfl
  | append_singleton more name ih =>
    rw [← List.append_assoc, eraseDups_concat (names ++ more), eraseDups_concat more, ← ih]
    by_cases hname : name ∈ more.eraseDups
    · have hmem : name ∈ (names ++ more.eraseDups).eraseDups :=
        List.mem_eraseDups.mpr (List.mem_append_right names hname)
      rw [if_pos hname, if_pos hmem]
    · rw [if_neg hname, ← List.append_assoc, eraseDups_concat]

theorem ofEntries_concat (entries : List (String × α)) (key : String) (value : α) :
    ofEntries (entries ++ [(key, value)]) = (ofEntries entries).insert key value := by
  simp [ofEntries, merge]

theorem keys_ofEntries (entries : List (String × α)) :
    (ofEntries entries).keys = (entries.map Prod.fst).eraseDups := by
  induction entries using List.reverseRecOn with
  | nil => rfl
  | append_singleton entries e ih =>
    rw [ofEntries_concat, keys_insert, ih, List.map_append, List.map_singleton, eraseDups_concat]

theorem get?_ofEntries (entries : List (String × α)) (key : String) :
    (ofEntries entries).get? key = (valuesAt entries key).getLast? := by
  induction entries using List.reverseRecOn with
  | nil => rfl
  | append_singleton entries e ih =>
    rw [ofEntries_concat, get?_insert, ih, valuesAt_append, valuesAt_singleton]
    split <;> simp

theorem nodup_keys_ofEntries (entries : List (String × α)) : (ofEntries entries).keys.Nodup := by
  rw [keys_ofEntries]
  exact nodup_eraseDups _

theorem ofEntries_append (entries more : List (String × α)) :
    ofEntries (entries ++ more) = (ofEntries entries).merge more := List.foldl_append

theorem getLast?_valuesAt_of_nodup {t : Table α} (h : t.keys.Nodup) (key : String) :
    (valuesAt t key).getLast? = t.get? key := by
  rw [← get?_ofEntries, ofEntries_of_nodup h]

theorem ofEntries_append_ofEntries (entries more : List (String × α)) :
    ofEntries (entries ++ ofEntries more) = ofEntries (entries ++ more) := by
  refine ext_of_nodup ?_ (nodup_keys_ofEntries _) fun key => ?_
  · have hkeys : (ofEntries more).map Prod.fst = (more.map Prod.fst).eraseDups :=
      keys_ofEntries more
    rw [keys_ofEntries, keys_ofEntries, List.map_append, List.map_append, hkeys,
      eraseDups_append_eraseDups]
  · have hlast := getLast?_valuesAt_of_nodup (nodup_keys_ofEntries more) key
    rw [get?_ofEntries, get?_ofEntries, valuesAt_append, valuesAt_append, List.getLast?_append,
      List.getLast?_append, hlast, get?_ofEntries]

theorem ofEntries_flatMap_ofEntries (parts : List (List (String × α))) :
    ofEntries (parts.flatMap ofEntries) = ofEntries parts.flatten := by
  induction parts using List.reverseRecOn with
  | nil => rfl
  | append_singleton parts part ih =>
    rw [List.flatMap_append, List.flatMap_singleton, ofEntries_append_ofEntries,
      List.flatten_append, List.flatten_singleton, ofEntries_append, ih, ← ofEntries_append]

theorem get?_ofEntries_flatten {tables : List (Table α)} (h : ∀ t ∈ tables, t.keys.Nodup)
    (key : String) :
    (ofEntries tables.flatten).get? key = tables.reverse.findSome? (·.get? key) := by
  rw [get?_ofEntries]
  induction tables using List.reverseRecOn with
  | nil => rfl
  | append_singleton tables t ih =>
    have hlast : (valuesAt t key).getLast? = t.get? key :=
      getLast?_valuesAt_of_nodup (h t (by simp)) key
    have hrest := ih fun u hu => h u (List.mem_append_left _ hu)
    rw [List.flatten_append, List.flatten_singleton, valuesAt_append, List.getLast?_append, hlast,
      hrest, List.reverse_append, List.findSome?_append]
    simp

end HclEval.Table
