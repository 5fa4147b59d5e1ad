import HclEval.Proofs.Trees
import HclEval.Reduction.Placement

/-!
Values between the two passes. Their trees are still to be evaluated, and a tree that can be
reached by no path is a result already: an entry that an earlier one of the same key hides holds
results only. So once everything that a path leads to has been evaluated, all of the value has.
-/
namespace HclEval.Value

mutual

/-- A value whose trees may be evaluated, and whose hidden entries hold results. -/
def Staged (trees results : Node → Prop) : Value → Prop
  | list items => stagedItems trees results items
  | map entries => stagedEntries trees results entries
  | node tree => trees tree
  | _ => True
termination_by structural value => value

def stagedItems (trees results : Node → Prop) : List Value → Prop
  | [] => True
  | value :: rest => value.Staged trees results ∧ stagedItems trees results rest

def stagedEntries (trees results : Node → Prop) : List (String × Value) → Prop
  | [] => True
  | (key, value) :: rest =>
    (value.Staged trees results ∧ ∀ e ∈ rest, e.1 = key → e.2.Every results) ∧
      stagedEntries trees results rest

end

def HidesResults (results : Node → Prop) (entries : List (String × Value)) : Prop :=
  entries.Pairwise fun e e' => e'.1 = e.1 → e'.2.Every results

variable {trees results : Node → Prop}

@[simp] theorem staged_null : null.Staged trees results := trivial
@[simp] theorem staged_bool (b : Bool) : (bool b).Staged trees results := trivial
@[simp] theorem staged_number (x : Number) : (number x).Staged trees results := trivial
@[simp] theorem staged_string (text : String) : (string text).Staged trees results := trivial
@[simp] theorem staged_type (marker : TypeMarker) : (type marker).Staged trees results := trivial
@[simp] theorem staged_node (tree : Node) : (node tree).Staged trees results ↔ trees tree :=
  Iff.rfl

@[simp] theorem staged_list (items : List Value) :
    (list items).Staged trees results ↔ ∀ v ∈ items, v.Staged trees results := by
  rw [Staged]
  induction items with
  | nil => simp [stagedItems]
  | cons v rest ih => simp [stagedItems, ih]

theorem staged_map (entries : List (String × Value)) :
    (map entries).Staged trees results ↔
      HidesResults results entries ∧ ∀ e ∈ entries, e.2.Staged trees results := by
  rw [Staged]
  induction entries with
  | nil => simp [stagedEntries, HidesResults]
  | cons e rest ih =>
    simp only [stagedEntries, ih, HidesResults, List.pairwise_cons, List.forall_mem_cons]
    tauto

@[simp] theorem staged_map_nil : (map []).Staged trees results := by
  simp [staged_map, HidesResults]

@[simp] theorem staged_map_singleton (key : String) (value : Value) :
    (map [(key, value)]).Staged trees results ↔ value.Staged trees results := by
  simp [staged_map, HidesResults]

theorem Every.staged (sub : ∀ tree, results tree → trees tree) {v : Value}
    (h : v.Every results) : v.Staged trees results := by
  induction v using Value.induction with
  | list items ih =>
    rw [every_list] at h
    exact (staged_list ..).2 fun v hv => ih v hv (h v hv)
  | map entries ih =>
    rw [every_map] at h
    refine (staged_map ..).2 ⟨?_, fun e he => ih e he (h e he)⟩
    exact List.pairwise_of_forall_mem_list fun _ _ e' he' _ => h e' he'
  | node tree => exact (staged_node ..).2 (sub tree ((every_node ..).1 h))
  | _ => simp

theorem Staged.every {v : Value}
    (h : v.Staged trees results) : v.Every trees := by
  induction v using Value.induction with
  | list items ih => exact (every_list ..).2 fun v hv => ih v hv ((staged_list ..).1 h v hv)
  | map entries ih =>
    exact (every_map ..).2 fun e he => ih e he (((staged_map ..).1 h).2 e he)
  | node tree => exact (every_node ..).2 ((staged_node ..).1 h)
  | _ => simp

theorem Staged.mono {trees' results' : Node → Prop} (htrees : ∀ tree, trees tree → trees' tree)
    (hresults : ∀ tree, results tree → results' tree) {v : Value}
    (h : v.Staged trees results) : v.Staged trees' results' := by
  induction v using Value.induction with
  | list items ih =>
    exact (staged_list ..).2 fun v hv => ih v hv ((staged_list ..).1 h v hv)
  | map entries ih =>
    obtain ⟨hidden, staged⟩ := (staged_map ..).1 h
    refine (staged_map ..).2 ⟨hidden.imp fun hee heq => ?_, fun e he => ih e he (staged e he)⟩
    exact (hee heq).mono hresults
  | node tree => exact (staged_node ..).2 (htrees tree ((staged_node ..).1 h))
  | _ => simp

theorem forall_of_hidesResults {p : Value → Prop} {entries : List (String × Value)}
    (hidden : HidesResults results entries) (hp : ∀ v, v.Every results → p v)
    (reached : ∀ key v, Table.get? entries key = some v → p v) : ∀ e ∈ entries, p e.2 := by
  induction entries with
  | nil => simp
  | cons e rest ih =>
    obtain ⟨k, v⟩ := e
    obtain ⟨here, below⟩ := List.pairwise_cons.1 hidden
    refine List.forall_mem_cons.2 ⟨reached k v (by simp [Table.get?]), ih below ?_⟩
    intro key w hw
    by_cases hk : k = key
    · subst hk
      exact hp w (here _ (Table.mem_of_get? hw) rfl)
    · exact reached key w (by simpa [Table.get?, hk] using hw)

theorem every_of_staged {entries : List (String × Value)}
    (h : (map entries).Staged trees results)
    (reached : ∀ key v, Table.get? entries key = some v → v.Every results) :
    (map entries).Every results :=
  (every_map _).2 (forall_of_hidesResults ((staged_map ..).1 h).1 (fun _ hv => hv) reached)

theorem hidesResults_insert {t : Table Value} (ht : HidesResults results t) (key : String)
    (value : Value) : HidesResults results (Table.insert t key value) := by
  induction t with
  | nil => exact List.pairwise_singleton ..
  | cons e rest ih =>
    obtain ⟨k, v⟩ := e
    obtain ⟨here, below⟩ := List.pairwise_cons.1 ht
    simp only [Table.insert]
    split
    · exact List.pairwise_cons.2 ⟨here, below⟩
    · rename_i hk
      refine List.pairwise_cons.2 ⟨?_, ih below⟩
      intro e he
      rcases Table.mem_insert he with rfl | he
      · exact fun h => absurd h.symm hk
      · exact here e he

theorem staged_insert {t : Table Value} {key : String} {value : Value}
    (ht : (map t).Staged trees results) (hv : value.Staged trees results) :
    (map (Table.insert t key value)).Staged trees results := by
  obtain ⟨hidden, staged⟩ := (staged_map ..).1 ht
  refine (staged_map ..).2 ⟨hidesResults_insert hidden key value, ?_⟩
  intro e he
  rcases Table.mem_insert he with rfl | he
  · exact hv
  · exact staged e he

theorem staged_modify {t : Table Value} {key : String} {f : Value → Value}
    (ht : (map t).Staged trees results)
    (hf : ∀ v, (key, v) ∈ t → (f v).Staged trees results) :
    (map (Table.modify t key f)).Staged trees results := by
  obtain ⟨hidden, staged⟩ := (staged_map ..).1 ht
  suffices HidesResults results (Table.modify t key f) ∧
      (∀ e ∈ Table.modify t key f, e.2.Staged trees results) ∧
      ∀ e ∈ Table.modify t key f, e.1 = key ∨ e ∈ t from
    (staged_map ..).2 ⟨this.1, this.2.1⟩
  clear ht
  induction t with
  | nil => simp [Table.modify, HidesResults]
  | cons e rest ih =>
    obtain ⟨k, v⟩ := e
    obtain ⟨here, below⟩ := List.pairwise_cons.1 hidden
    simp only [List.forall_mem_cons] at staged
    simp only [Table.modify]
    split
    · rename_i hk
      subst hk
      refine ⟨List.pairwise_cons.2 ⟨here, below⟩, ?_, ?_⟩
      · exact List.forall_mem_cons.2 ⟨hf v (List.mem_cons_self ..), staged.2⟩
      · simp +contextual
    · rename_i hk
      obtain ⟨hidden', staged', keys⟩ :=
        ih (fun v hv => hf v (List.mem_cons_of_mem _ hv)) below staged.2
      refine ⟨List.pairwise_cons.2 ⟨?_, hidden'⟩, List.forall_mem_cons.2 ⟨staged.1, staged'⟩, ?_⟩
      · intro e he heq
        rcases keys e he with h | h
        · exact absurd (heq.symm.trans h) hk
        · exact here e h heq
      · refine List.forall_mem_cons.2 ⟨.inr (List.mem_cons_self ..), fun e he => ?_⟩
        exact (keys e he).imp id (List.mem_cons_of_mem _)

theorem Staged.child? {v w : Value} {step : Step} (hv : v.Staged trees results)
    (h : v.child? step = some w) : w.Staged trees results := by
  cases v <;> cases step <;> simp only [Value.child?, reduceCtorEq] at h
  case list.index items i => exact (staged_list items).1 hv w (List.mem_of_getElem? h)
  case map.key entries name =>
    exact ((staged_map entries).1 hv).2 _ (Table.mem_of_get? h)

theorem Staged.at? {v w : Value} {path : Path} (hv : v.Staged trees results)
    (h : v.at? path = some w) : w.Staged trees results := by
  induction path generalizing v with
  | nil =>
    obtain rfl : v = w := by simpa [Value.at?] using h
    exact hv
  | cons step rest ih =>
    obtain ⟨u, hu, h⟩ := Option.bind_eq_some_iff.1 h
    exact ih (hv.child? hu) h

theorem Staged.put {v w : Value} {path : Path} (hv : v.Staged trees results)
    (hw : w.Staged trees results) : (v.put path w).Staged trees results := by
  induction path generalizing v with
  | nil => simpa [Value.put] using hw
  | cons step rest ih =>
    cases v <;> cases step <;> simp only [Value.put] <;> try exact hv
    case list.index items i =>
      rw [staged_list] at hv ⊢
      intro u hu
      obtain ⟨j, hj, rfl⟩ := List.mem_iff_getElem.1 hu
      rw [List.getElem_modify]
      split
      · exact ih (hv _ (List.getElem_mem _))
      · exact hv _ (List.getElem_mem _)
    case map.key entries name =>
      exact staged_modify hv fun u hu => ih (((staged_map entries).1 hv).2 _ hu)

theorem staged_put {table : Table Value} {path : Path} {value : Value}
    (ht : (map table).Staged trees results) (hv : value.Staged trees results) :
    (map (Document.put table path value)).Staged trees results := by
  have hput : ((map table).put path value).Staged trees results := ht.put hv
  unfold Document.put
  cases h : (map table).put path value <;>
    simp only [map?, Option.getD_none, Option.getD_some, staged_map_nil]
  rw [h] at hput
  exact hput

theorem staged_mapAt {table : Table Value} (ht : (map table).Staged trees results) (path : Path) :
    (map ((((map table).at? path).bind map?).getD [])).Staged trees results := by
  cases hat : (map table).at? path with
  | none => simp
  | some v =>
    cases v <;> simp only [Option.bind_some, map?, Option.getD_none, Option.getD_some,
      staged_map_nil]
    exact ht.at? hat

end HclEval.Value

namespace HclEval.Reduction

variable {trees results : Node → Prop}

theorem staged_placeLast {table table' : Table Value} {name : String} {path : Path}
    (h : placeLast table name = .ok (table', path))
    (ht : (Value.map table).Staged trees results) :
    (Value.map table').Staged trees results := by
  unfold placeLast at h
  have below {v : Value} (hv : table.get? name = some v) : v.Staged trees results :=
    ((Value.staged_map ..).1 ht).2 _ (Table.mem_of_get? hv)
  split at h <;> simp only [Except.ok.injEq, Prod.mk.injEq, reduceCtorEq] at h
  · obtain ⟨rfl, -⟩ := h
    exact Value.staged_insert ht (by simp)
  · rename_i prior hprior
    obtain ⟨rfl, -⟩ := h
    exact Value.staged_insert ht (by simpa using below hprior)
  · rename_i items hitems
    obtain ⟨rfl, -⟩ := h
    refine Value.staged_insert ht ((Value.staged_list ..).2 fun v hv => ?_)
    rcases List.mem_append.1 hv with hv | hv
    · exact (Value.staged_list ..).1 (below hitems) v hv
    · simp_all

theorem staged_place {table table' : Table Value} {names : List String} {path : Path}
    (h : place table names = .ok (table', path))
    (ht : (Value.map table).Staged trees results) :
    (Value.map table').Staged trees results := by
  induction names generalizing table table' path with
  | nil =>
    obtain ⟨rfl, -⟩ : table = table' ∧ _ := by simpa [place] using h
    exact ht
  | cons name rest ih =>
    cases rest with
    | nil => exact staged_placeLast h ht
    | cons next rest =>
      simp only [place] at h
      split at h <;> simp only [Except.ok.injEq, Prod.mk.injEq, reduceCtorEq] at h
      rename_i entries inner hplace
      obtain ⟨rfl, -⟩ := h
      refine Value.staged_insert ht ?_
      split at hplace <;> simp only [Except.bind, reduceCtorEq] at hplace
      · exact ih hplace (by simp)
      · rename_i below hbelow
        exact ih hplace (((Value.staged_map ..).1 ht).2 _ (Table.mem_of_get? hbelow))

end HclEval.Reduction
