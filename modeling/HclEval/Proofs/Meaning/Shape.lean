import HclEval.Proofs.Filling
import HclEval.Reduction.Placement
import HclEval.Reduction.Reference

/-!
Documents in which `locals` and `variable` are made of blocks. Blocks that are placed there leave
them so, and filling such a document in changes neither where its locals are declared nor where
the defaults of its variables are.
-/
namespace HclEval

open Reduction

/-- What blocks under one name make: a map, or a list of maps. -/
def Value.IsBlocks : Value → Prop
  | .map _ => True
  | .list items => ∀ item ∈ items, ∃ entries, item = .map entries
  | _ => False

structure Document.Shaped (document : Document) : Prop where
  locals : ∀ v, Table.get? document "locals" = some v → v.IsBlocks
  declared : ∀ v, Table.get? document "variable" = some v →
    ∃ entries, v = .map entries ∧ ∀ e ∈ entries, e.2.IsBlocks

namespace Reduction

def lastBlock? (path : Path) : Value → Option (Value × Path)
  | .list blocks => blocks.getLast?.map fun last => (last, path ++ [.index (blocks.length - 1)])
  | block => some (block, path)

def defaultOf (block : Value × Path) : Cursor :=
  match block.1 with
  | .map entries =>
    if Table.contains entries "default" then .slot (block.2 ++ [.key "default"]) else .value .null
  | _ => .slot block.2

theorem some_defaultOf (block : Value) (path : Path) :
    (match block with
      | .map entries =>
        if Table.contains entries "default" then some (Cursor.slot (path ++ [.key "default"]))
        else some (.value .null)
      | _ => some (.slot path)) = some (defaultOf (block, path)) := by
  cases block
  case map entries =>
    simp only [defaultOf]
    split <;> rfl
  all_goals rfl

theorem variableDefault?_def (document : Document) (name : String) :
    variableDefault? document name =
      ((((Table.get? document "variable").bind Value.map?).bind (Table.get? · name)).bind
        (lastBlock? [.key "variable", .key name])).map defaultOf := by
  unfold variableDefault?
  cases Table.get? document "variable" with
  | none => rfl
  | some v =>
    simp only [Option.bind_eq_bind, Option.bind_some]
    cases v.map? with
    | none => rfl
    | some blocks =>
      simp only [Option.bind_some]
      cases blocks.get? name with
      | none => rfl
      | some block =>
        simp only [Option.bind_some]
        cases block
        case list blocks =>
          simp only [lastBlock?]
          cases blocks.getLast? with
          | none => rfl
          | some last => exact some_defaultOf last _
        case map entries => exact some_defaultOf (.map entries) _
        all_goals rfl

theorem variableDefault?_cases {document : Document} {name : String} {cursor : Cursor}
    (h : variableDefault? document name = some cursor) :
    cursor = .value .null ∨ ∃ path, cursor = .slot path := by
  rw [variableDefault?_def] at h
  obtain ⟨block, -, rfl⟩ := Option.map_eq_some_iff.1 h
  unfold defaultOf
  split
  · split
    · exact .inr ⟨_, rfl⟩
    · exact .inl rfl
  · exact .inr ⟨_, rfl⟩

end Reduction

namespace Value

variable {m : Becoming}

theorem fills_insert {t t' : Table Value} (h : List.Forall₂ (FillsEntry m) t t') (key : String)
    {v v' : Value} (hv : v.Fills m v') :
    List.Forall₂ (FillsEntry m) (Table.insert t key v) (Table.insert t' key v') := by
  induction h with
  | nil => exact .cons ⟨rfl, hv⟩ .nil
  | @cons e e' rest rest' head tail ih =>
    obtain ⟨k, u⟩ := e
    obtain ⟨k', u'⟩ := e'
    obtain ⟨rfl, hu⟩ : k' = k ∧ u.Fills m u' := head
    simp only [Table.insert]
    split
    · exact .cons ⟨rfl, hv⟩ tail
    · exact .cons ⟨rfl, hu⟩ ih

theorem fills_merge {t t' u u' : Table Value} (ht : List.Forall₂ (FillsEntry m) t t')
    (hu : List.Forall₂ (FillsEntry m) u u') :
    List.Forall₂ (FillsEntry m) (Table.merge t u) (Table.merge t' u') := by
  induction hu generalizing t t' with
  | nil => exact ht
  | @cons e e' rest rest' head _ ih =>
    obtain ⟨k, v⟩ := e
    obtain ⟨k', v'⟩ := e'
    obtain ⟨rfl, hv⟩ : k' = k ∧ v.Fills m v' := head
    exact ih (fills_insert ht k' hv)

theorem fills_mergeBlocks {blocks blocks' : List Value} (h : List.Forall₂ (Fills m) blocks blocks')
    (hblocks : ∀ v ∈ blocks, ∃ entries, v = .map entries) {t t' : Table Value}
    (ht : List.Forall₂ (FillsEntry m) t t') :
    List.Forall₂ (FillsEntry m) ((blocks.filterMap Value.map?).foldl Table.merge t)
      ((blocks'.filterMap Value.map?).foldl Table.merge t') := by
  induction h generalizing t t' with
  | nil => exact ht
  | cons head _ ih =>
    simp only [List.forall_mem_cons] at hblocks
    obtain ⟨entries, rfl⟩ := hblocks.1
    obtain ⟨entries', rfl, hentries⟩ := (fills_map ..).1 head
    exact ih hblocks.2 (fills_merge ht hentries)

theorem isBlocks_cases {v : Value} (hv : v.IsBlocks) : (∃ entries, v = .map entries) ∨
    ∃ items, v = .list items ∧ ∀ item ∈ items, ∃ entries, item = .map entries := by
  cases v <;> simp only [IsBlocks] at hv
  case list items => exact .inr ⟨items, rfl, hv⟩
  case map entries => exact .inl ⟨entries, rfl⟩

theorem exists_map_put (entries : Table Value) (path : Path) (inner : Table Value) :
    ∃ entries', (map entries).put path (map inner) = map entries' := by
  cases path with
  | nil => exact ⟨inner, rfl⟩
  | cons step rest => cases step <;> exact ⟨_, rfl⟩

theorem IsBlocks.put {v : Value} (hv : v.IsBlocks) (path : Path) (inner : Table Value) :
    (v.put path (map inner)).IsBlocks := by
  rcases isBlocks_cases hv with ⟨entries, rfl⟩ | ⟨items, rfl, hitems⟩
  · obtain ⟨entries', hput⟩ := exists_map_put entries path inner
    rw [hput]
    trivial
  · cases path with
    | nil => trivial
    | cons step rest =>
      cases step with
      | key name => exact hitems
      | index i =>
        intro item hmem
        obtain ⟨j, hj, rfl⟩ := List.mem_iff_getElem.1 hmem
        rw [List.length_modify] at hj
        rw [List.getElem_modify]
        obtain ⟨entries, hentries⟩ := hitems items[j] (List.getElem_mem hj)
        split
        · rw [hentries]
          exact exists_map_put entries rest inner
        · exact ⟨entries, hentries⟩

theorem contains_eq_of_fills {entries entries' : List (String × Value)}
    (h : List.Forall₂ (FillsEntry m) entries entries') (name : String) :
    Table.contains entries' name = Table.contains entries name :=
  isSome_eq_of_rel (fillsEntry_get? h name)

theorem defaultOf_lastBlock? {v w : Value} (hv : v.IsBlocks) (h : v.Fills m w) (path : Path) :
    (lastBlock? path v).map defaultOf = (lastBlock? path w).map defaultOf := by
  rcases isBlocks_cases hv with ⟨entries, rfl⟩ | ⟨items, rfl, hitems⟩
  · obtain ⟨entries', rfl, hentries⟩ := (fills_map ..).1 h
    simp only [lastBlock?, Option.map_some, defaultOf, contains_eq_of_fills hentries]
  · obtain ⟨items', rfl, hfills⟩ := (fills_list ..).1 h
    have hlast := fills_getElem? hfills (items.length - 1)
    have hmaps : ∀ v, items[items.length - 1]? = some v → ∃ entries, v = .map entries :=
      fun u hu => hitems u (List.mem_of_getElem? hu)
    simp only [lastBlock?, List.getLast?_eq_getElem?, ← hfills.length_eq]
    generalize items[items.length - 1]? = v? at hlast hmaps
    generalize items'[items.length - 1]? = w? at hlast
    cases hlast with
    | none => rfl
    | some hvw =>
      obtain ⟨entries, rfl⟩ := hmaps _ rfl
      obtain ⟨entries', rfl, hentries⟩ := (fills_map ..).1 hvw
      simp only [Option.map_some, defaultOf, contains_eq_of_fills hentries]

theorem lastDeclaring?_eq_of_fills {blocks blocks' : List Value}
    (h : List.Forall₂ (Fills m) blocks blocks')
    (hblocks : ∀ v ∈ blocks, ∃ entries, v = .map entries) (name : String) :
    Document.lastDeclaring? name blocks' = Document.lastDeclaring? name blocks := by
  unfold Document.lastDeclaring?
  rw [h.length_eq]
  congr 1
  funext i
  have hrel := fills_getElem? h i
  have hmem : ∀ v, blocks[i]? = some v → ∃ entries, v = .map entries :=
    fun v hv => hblocks v (List.mem_of_getElem? hv)
  generalize blocks[i]? = v? at hrel hmem
  generalize blocks'[i]? = w? at hrel
  cases hrel with
  | none => rfl
  | some hvw =>
    obtain ⟨entries, rfl⟩ := hmem _ rfl
    obtain ⟨entries', rfl, hentries⟩ := (fills_map ..).1 hvw
    exact contains_eq_of_fills hentries name

end Value

namespace Reduction

theorem place_entry {table table' : Table Value} {name : String} {names : List String} {path : Path}
    (h : place table (name :: names) = .ok (table', path)) :
    ∃ v rest, table' = table.insert name v ∧ path = .key name :: rest ∧
      ∀ u : Table Value, u.get? name = table.get? name →
        place u (name :: names) = .ok (u.insert name v, path) := by
  cases names with
  | nil =>
    simp only [place, placeLast] at h
    split at h <;> simp only [Except.ok.injEq, Prod.mk.injEq, reduceCtorEq] at h
    all_goals
      rename_i hentry
      obtain ⟨rfl, rfl⟩ := h
      refine ⟨_, _, rfl, rfl, fun u hu => ?_⟩
      simp only [place, placeLast, hu, hentry]
  | cons next rest =>
    simp only [place] at h
    split at h <;> simp only [Except.ok.injEq, Prod.mk.injEq, reduceCtorEq] at h
    rename_i entries inner hplace
    obtain ⟨rfl, rfl⟩ := h
    refine ⟨_, _, rfl, rfl, fun u hu => ?_⟩
    simp only [place, hu]
    rw [hplace]

theorem place_at? {table table' : Table Value} {name : String} {names : List String} {path : Path}
    (h : place table (name :: names) = .ok (table', path)) :
    (Value.map table').at? path = some (.map []) := by
  induction names generalizing table table' name path with
  | nil =>
    simp only [place, placeLast] at h
    split at h <;> simp only [Except.ok.injEq, Prod.mk.injEq, reduceCtorEq] at h
    all_goals
      obtain ⟨rfl, rfl⟩ := h
      simp [Value.at?, Value.child?, Table.get?_insert]
  | cons next rest ih =>
    simp only [place] at h
    split at h <;> simp only [Except.ok.injEq, Prod.mk.injEq, reduceCtorEq] at h
    rename_i entries inner hplace
    obtain ⟨rfl, rfl⟩ := h
    have hbelow : (Value.map entries).at? inner = some (.map []) := by
      split at hplace <;> simp only [Except.bind, reduceCtorEq] at hplace
      · exact ih hplace
      · exact ih hplace
    simp only [Value.at?, Value.child?, Table.get?_insert, if_pos, Option.bind_some, hbelow]

theorem place_isBlocks {table table' : Table Value} {name : String} {names : List String}
    {path : Path} (h : place table (name :: names) = .ok (table', path))
    (hentry : ∀ v, table.get? name = some v → v.IsBlocks) {v : Value}
    (hv : table'.get? name = some v) : v.IsBlocks := by
  cases names with
  | nil =>
    simp only [place, placeLast] at h
    split at h <;> simp only [Except.ok.injEq, Prod.mk.injEq, reduceCtorEq] at h
    all_goals
      rename_i hslot
      obtain ⟨rfl, -⟩ := h
      rw [Table.get?_insert, if_pos rfl] at hv
      cases hv
    · trivial
    · simp [Value.IsBlocks]
    · have hitems := hentry _ hslot
      simp only [Value.IsBlocks] at hitems ⊢
      simp only [List.mem_append, List.mem_singleton]
      rintro item (hitem | rfl)
      · exact hitems item hitem
      · exact ⟨[], rfl⟩
  | cons next rest =>
    simp only [place] at h
    split at h <;> simp only [Except.ok.injEq, Prod.mk.injEq, reduceCtorEq] at h
    obtain ⟨rfl, -⟩ := h
    rw [Table.get?_insert, if_pos rfl] at hv
    cases hv
    trivial

theorem place_declared {table table' : Table Value} {name label : String} {names : List String}
    {path : Path} (h : place table (name :: label :: names) = .ok (table', path))
    (hentry : ∀ v, table.get? name = some v →
      ∃ entries, v = .map entries ∧ ∀ e ∈ entries, e.2.IsBlocks) :
    ∃ entries rest, path = .key name :: .key label :: rest ∧
      table'.get? name = some (.map entries) ∧ ∀ e ∈ entries, e.2.IsBlocks := by
  have hinside {below entries : Table Value} {inner : Path}
      (hbelow : ∀ e ∈ below, e.2.IsBlocks)
      (hplace : place below (label :: names) = .ok (entries, inner)) :
      (∃ rest, inner = .key label :: rest) ∧ ∀ e ∈ entries, e.2.IsBlocks := by
    obtain ⟨w, rest, rfl, rfl, -⟩ := place_entry hplace
    refine ⟨⟨rest, rfl⟩, fun e he => ?_⟩
    rcases Table.mem_insert he with rfl | he
    · exact place_isBlocks hplace (fun v hv => hbelow _ (Table.mem_of_get? hv))
        (by rw [Table.get?_insert, if_pos rfl])
    · exact hbelow e he
  simp only [place] at h
  split at h <;> simp only [Except.ok.injEq, Prod.mk.injEq, reduceCtorEq] at h
  rename_i entries inner hplace
  obtain ⟨rfl, rfl⟩ := h
  have hblocks : (∃ rest, inner = .key label :: rest) ∧ ∀ e ∈ entries, e.2.IsBlocks := by
    split at hplace <;> simp only [Except.bind, reduceCtorEq] at hplace
    · exact hinside (by simp) hplace
    · rename_i below hslot
      obtain ⟨_, hmap, hbelow⟩ := hentry _ hslot
      cases hmap
      exact hinside hbelow hplace
  obtain ⟨⟨rest, rfl⟩, hentries⟩ := hblocks
  exact ⟨entries, rest, rfl, by rw [Table.get?_insert, if_pos rfl], hentries⟩

end Reduction

namespace Document

variable {m : Value.Becoming} {d d' : Document} (hd : d.Shaped)
  (h : (Value.map d).Fills m (.map d'))
include hd h

theorem Shaped.fills_locals : (Value.map d.locals).Fills m (.map d'.locals) := by
  have hrel := Value.fillsEntry_get? (Value.fills_map_map.1 h) "locals"
  have hblocks := hd.locals
  unfold Document.locals
  generalize Table.get? d "locals" = v? at hrel hblocks
  generalize Table.get? d' "locals" = w? at hrel
  cases hrel with
  | none => exact .refl _
  | @some v w hvw =>
    have hv := hblocks v rfl
    cases v <;> simp only [Value.IsBlocks] at hv
    case list items =>
      obtain ⟨items', rfl, hitems⟩ := (Value.fills_list ..).1 hvw
      exact Value.fills_map_map.2 (Value.fills_mergeBlocks hitems hv .nil)
    case map entries =>
      obtain ⟨entries', rfl, hentries⟩ := (Value.fills_map ..).1 hvw
      exact Value.fills_map_map.2 hentries

theorem Shaped.localPath?_eq (name : String) : d'.localPath? name = d.localPath? name := by
  have hrel := Value.fillsEntry_get? (Value.fills_map_map.1 h) "locals"
  have hblocks := hd.locals
  unfold Document.localPath?
  generalize Table.get? d "locals" = v? at hrel hblocks
  generalize Table.get? d' "locals" = w? at hrel
  cases hrel with
  | none => rfl
  | @some v w hvw =>
    have hv := hblocks v rfl
    cases v <;> simp only [Value.IsBlocks] at hv
    case list items =>
      obtain ⟨items', rfl, hitems⟩ := (Value.fills_list ..).1 hvw
      simp only [Value.lastDeclaring?_eq_of_fills hitems hv]
    case map entries =>
      obtain ⟨entries', rfl, hentries⟩ := (Value.fills_map ..).1 hvw
      simp only [Value.contains_eq_of_fills hentries]

theorem Shaped.variableDefault?_eq (name : String) :
    variableDefault? d' name = variableDefault? d name := by
  have hrel := Value.fillsEntry_get? (Value.fills_map_map.1 h) "variable"
  have hdeclared := hd.declared
  rw [variableDefault?_def, variableDefault?_def]
  generalize Table.get? d "variable" = v? at hrel hdeclared
  generalize Table.get? d' "variable" = w? at hrel
  cases hrel with
  | none => rfl
  | @some v w hvw =>
    obtain ⟨entries, rfl, hblocks⟩ := hdeclared v rfl
    obtain ⟨entries', rfl, hentries⟩ := (Value.fills_map ..).1 hvw
    have hrel := Value.fillsEntry_get? hentries name
    have hblocks : ∀ v, Table.get? entries name = some v → v.IsBlocks :=
      fun v hv => hblocks _ (Table.mem_of_get? hv)
    simp only [Value.map?, Option.bind_some]
    generalize Table.get? entries name = v? at hrel hblocks
    generalize Table.get? entries' name = w? at hrel
    cases hrel with
    | none => rfl
    | @some v w hvw => exact (Value.defaultOf_lastBlock? (hblocks v rfl) hvw _).symm

omit hd h in
theorem exists_slot?_of_localPath? {name : String} {path : Path}
    (hpath : d.localPath? name = some path) : ∃ v, d.slot? path = some v := by
  unfold Document.localPath? at hpath
  split at hpath
  · rename_i entries hlocals
    split at hpath <;> cases hpath
    rename_i hcontains
    obtain ⟨v, hv⟩ := Option.isSome_iff_exists.1 hcontains
    exact ⟨v, by simp [Document.slot?, Value.at?, Value.child?, hlocals, hv]⟩
  · rename_i items hlocals
    obtain ⟨i, hi, rfl⟩ := Option.map_eq_some_iff.1 hpath
    have hfound := List.find?_some hi
    split at hfound
    · rename_i entries hitem
      obtain ⟨v, hv⟩ := Option.isSome_iff_exists.1 hfound
      exact ⟨v, by simp [Document.slot?, Value.at?, Value.child?, hlocals, hitem, hv]⟩
    · cases hfound
  · cases hpath

omit h in
theorem Shaped.exists_slot?_of_variableDefault? {name : String} {path : Path}
    (hpath : variableDefault? d name = some (.slot path)) : ∃ v, d.slot? path = some v := by
  rw [variableDefault?_def] at hpath
  obtain ⟨⟨block, blockPath⟩, hblock, hdefault⟩ := Option.map_eq_some_iff.1 hpath
  obtain ⟨v, hv, hlast⟩ := Option.bind_eq_some_iff.1 hblock
  obtain ⟨blocks, hblocks, hname⟩ := Option.bind_eq_some_iff.1 hv
  obtain ⟨u, hu, hmap⟩ := Option.bind_eq_some_iff.1 hblocks
  obtain ⟨entries, rfl, hshape⟩ := hd.declared u hu
  cases hmap
  have hslot : d.slot? blockPath = some block := by
    rcases Value.isBlocks_cases (hshape _ (Table.mem_of_get? hname)) with
      ⟨entries, rfl⟩ | ⟨items, rfl, _⟩
    · cases hlast
      simp [Document.slot?, Value.at?, Value.child?, hu, hname]
    · obtain ⟨last, hgetLast, hlast⟩ := Option.map_eq_some_iff.1 hlast
      cases hlast
      rw [List.getLast?_eq_getElem?] at hgetLast
      simp [Document.slot?, Value.at?, Value.child?, hu, hname, hgetLast]
  unfold defaultOf at hdefault
  split at hdefault
  · rename_i entries hentries
    split at hdefault
    · rename_i hcontains
      cases hdefault
      obtain ⟨v, hv⟩ := Option.isSome_iff_exists.1 hcontains
      refine ⟨v, ?_⟩
      have hblock : block = .map entries := hentries
      rw [slot?_append, hslot, hblock]
      exact hv
    · cases hdefault
  · cases hdefault
    exact ⟨block, hslot⟩

end Document
end HclEval
