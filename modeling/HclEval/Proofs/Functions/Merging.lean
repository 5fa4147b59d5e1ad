import HclEval.Proofs.Functions.Basic
import HclEval.Proofs.Tables

/-!
Merging maps. A key of the merged map has the place where it occurs first and the value it has
last, and `null` adds nothing. So neighbours may be merged among themselves before all are merged.
-/
namespace HclEval.Builtin

def isMergeable : Value → Bool
  | .map _ | .null => true
  | _ => false

def mapsAmong (values : List Value) : List (Table Value) := values.filterMap Value.map?

def mergedMap (values : List Value) : Table Value := Table.ofEntries (mapsAmong values).flatten

theorem mergeFrom_eq (merged : Table Value) (arguments : List Value) :
    mergeFrom merged arguments =
      if arguments.all isMergeable then some (merged.merge (mapsAmong arguments).flatten)
      else none := by
  induction arguments generalizing merged with
  | nil => rfl
  | cons argument rest ih =>
    cases argument with
    | map entries =>
      have happend : merged.merge (mapsAmong (.map entries :: rest)).flatten =
          (merged.merge entries).merge (mapsAmong rest).flatten := List.foldl_append
      rw [mergeFrom, ih, happend]
      rfl
    | null => exact ih merged
    | _ => rfl

theorem answers_mergeFrom (arguments : List Value) :
    Answers "merge" arguments (.ok (Value.ofOption ((mergeFrom [] arguments).map .map))) :=
  answers_total (f := fun arguments => (mergeFrom [] arguments).map .map) (fun _ => rfl) arguments

theorem answers_merge {arguments : List Value}
    (h : ∀ argument ∈ arguments, isMergeable argument = true) :
    Answers "merge" arguments (.ok (.map (mergedMap arguments))) := by
  have hmerge : mergeFrom [] arguments = some (mergedMap arguments) := by
    rw [mergeFrom_eq, if_pos (List.all_eq_true.mpr h)]
    rfl
  have hanswer := answers_mergeFrom arguments
  rwa [hmerge] at hanswer

theorem answers_merge_null {arguments : List Value}
    (h : ∃ argument ∈ arguments, isMergeable argument = false) :
    Answers "merge" arguments (.ok .null) := by
  obtain ⟨argument, hmem, hother⟩ := h
  have hmerge : mergeFrom [] arguments = none := by
    rw [mergeFrom_eq, if_neg]
    intro hall
    rw [List.all_eq_true.mp hall argument hmem] at hother
    cases hother
  have hanswer := answers_mergeFrom arguments
  rwa [hmerge] at hanswer

theorem mapsAmong_mergedMap (groups : List (List Value)) :
    mapsAmong (groups.map fun group => .map (mergedMap group)) = groups.map mergedMap := by
  rw [mapsAmong, List.filterMap_map]
  exact congrFun (List.filterMap_eq_map (f := mergedMap)) groups

theorem mergedMap_groups (groups : List (List Value)) :
    mergedMap (groups.map fun group => .map (mergedMap group)) = mergedMap groups.flatten := by
  have hparts : (groups.map mergedMap).flatten =
      (groups.map fun group => (mapsAmong group).flatten).flatMap Table.ofEntries := by
    rw [List.flatMap_map]
    rfl
  have hall : (groups.map fun group => (mapsAmong group).flatten).flatten =
      (mapsAmong groups.flatten).flatten := by
    rw [mapsAmong, List.filterMap_flatten, List.flatten_flatten, List.map_map]
    rfl
  rw [mergedMap, mapsAmong_mergedMap, hparts, Table.ofEntries_flatMap_ofEntries, hall, mergedMap]

/-- Maps are merged to the map of all their keys, ordered by where they occur first, each with the
value of the last map that has it; if anything is neither a map nor `null`, there is no map. It
does not matter which neighbours are merged first. -/
theorem merge_orders_and_regroups (arguments : List Value) :
    ((∀ argument ∈ arguments, isMergeable argument = true) → ∃ merged : Table Value,
      Answers "merge" arguments (.ok (.map merged)) ∧
      merged.keys = ((mapsAmong arguments).flatMap Table.keys).eraseDups ∧
      ((∀ entries ∈ mapsAmong arguments, entries.keys.Nodup) → ∀ key,
        merged.get? key = (mapsAmong arguments).reverse.findSome? (·.get? key)) ∧
      ∀ groups : List (List Value), groups.flatten = arguments → ∃ parts,
        List.Forall₂ (fun group part => Answers "merge" group (.ok part)) groups parts ∧
          Answers "merge" parts (.ok (.map merged))) ∧
    ((∃ argument ∈ arguments, isMergeable argument = false) →
      Answers "merge" arguments (.ok .null)) := by
  refine ⟨fun hmaps => ⟨mergedMap arguments, answers_merge hmaps, ?keys, ?values, ?groups⟩,
    answers_merge_null⟩
  case keys =>
    rw [mergedMap, Table.keys_ofEntries, List.map_flatten]
    rfl
  case values => exact fun hdistinct key => Table.get?_ofEntries_flatten hdistinct key
  case groups =>
    rintro groups rfl
    have hgroups : ∀ group ∈ groups, Answers "merge" group (.ok (.map (mergedMap group))) :=
      fun group hgroup => answers_merge fun argument hmem =>
        hmaps argument (List.mem_flatten_of_mem hgroup hmem)
    refine ⟨groups.map fun group => .map (mergedMap group), ?_, ?_⟩
    · exact List.forall₂_map_right_iff.mpr (List.forall₂_same.mpr hgroups)
    · rw [← mergedMap_groups]
      refine answers_merge fun part hpart => ?_
      obtain ⟨group, -, rfl⟩ := List.mem_map.mp hpart
      rfl

def overlappingMaps : List Value :=
  [.map [("a", .bool true), ("b", .bool true)], .null, .map [("c", .bool true), ("b", .null)]]

theorem merge_orders_and_regroups_overlapping :
    (∀ argument ∈ overlappingMaps, isMergeable argument = true) ∧
      (∀ entries ∈ mapsAmong overlappingMaps, entries.keys.Nodup) ∧
      (∃ argument ∈ [.null, .list []], isMergeable argument = false) ∧
      Answers "merge" [.null, .list []] (.ok .null) ∧
      ∃ merged : Table Value, Answers "merge" overlappingMaps (.ok (.map merged)) ∧
        merged.keys = ["a", "b", "c"] ∧ merged.get? "b" = some .null ∧
        ∃ parts, List.Forall₂ (fun group part => Answers "merge" group (.ok part))
            [overlappingMaps.take 2, overlappingMaps.drop 2] parts ∧
          Answers "merge" parts (.ok (.map merged)) := by
  have hmaps : ∀ argument ∈ overlappingMaps, isMergeable argument = true := by
    simp [overlappingMaps, isMergeable]
  have hdistinct : ∀ entries ∈ mapsAmong overlappingMaps, entries.keys.Nodup := by
    simp [overlappingMaps, mapsAmong, Value.map?, Table.keys]
  have hother : ∃ argument ∈ [Value.null, .list []], isMergeable argument = false :=
    ⟨.list [], by simp, rfl⟩
  obtain ⟨merged, hmerge, hkeys, hvalues, hgroups⟩ :=
    (merge_orders_and_regroups overlappingMaps).1 hmaps
  have hnull := (merge_orders_and_regroups [.null, .list []]).2 hother
  exact ⟨hmaps, hdistinct, hother, hnull, merged, hmerge, hkeys, hvalues hdistinct "b",
    hgroups [overlappingMaps.take 2, overlappingMaps.drop 2] rfl⟩

end HclEval.Builtin
