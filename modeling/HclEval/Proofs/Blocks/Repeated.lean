import HclEval.Proofs.Blocks.FirstPass
import HclEval.Proofs.Blocks.Placement

/-!
Blocks without attributes between them. The value at a path is that of its only block, or the list
of those of all its blocks, and there is nothing else but the maps that lead to them: each block
adds to the value at its own path and to the keys on the way, and no other path sees a difference.
-/
namespace HclEval

open Reduction

/-- Blocks in the order in which they were placed: their names, and what their bodies built. -/
abbrev Placed := List (List String × Table Value)

namespace Placed

def tablesAt (placed : Placed) (path : List String) : List (Table Value) :=
  placed.filterMap fun e => if e.1 = path then some e.2 else none

def namesAfter (placed : Placed) (path : List String) : List String :=
  placed.filterMap fun e => if path <+: e.1 then e.1[path.length]? else none

def under (placed : Placed) (name : String) : Placed :=
  placed.filterMap fun e =>
    match e.1 with
    | first :: rest => if first = name then some (rest, e.2) else none
    | [] => none

/-- No path leads through another. -/
def PrefixFree (placed : Placed) : Prop :=
  ∀ e ∈ placed, ∀ e' ∈ placed, e.1 <+: e'.1 → e.1 = e'.1

variable {placed : Placed} {name : String} {path rest : List String} {inner : Table Value}

theorem tablesAt_append (later : Placed) (path : List String) :
    (placed ++ later).tablesAt path = placed.tablesAt path ++ later.tablesAt path :=
  List.filterMap_append ..

theorem namesAfter_append (later : Placed) (path : List String) :
    (placed ++ later).namesAfter path = placed.namesAfter path ++ later.namesAfter path :=
  List.filterMap_append ..

theorem under_append (later : Placed) (name : String) :
    (placed ++ later).under name = placed.under name ++ later.under name :=
  List.filterMap_append ..

theorem mem_under {e : List String × Table Value} :
    e ∈ placed.under name ↔ (name :: e.1, e.2) ∈ placed := by
  simp only [under, List.mem_filterMap]
  constructor
  · rintro ⟨⟨_ | ⟨first, rest⟩, table⟩, hmem, h⟩
    · cases h
    · simp only [Option.ite_none_right_eq_some, Option.some.injEq] at h
      obtain ⟨rfl, rfl⟩ := h
      exact hmem
  · intro hmem
    exact ⟨_, hmem, by simp⟩

theorem tablesAt_cons (placed : Placed) (name : String) (path : List String) :
    placed.tablesAt (name :: path) = (placed.under name).tablesAt path := by
  simp only [tablesAt, under, List.filterMap_filterMap]
  refine List.filterMap_congr fun e _ => ?_
  obtain ⟨_ | ⟨first, rest⟩, table⟩ := e
  · rfl
  · by_cases hfirst : first = name <;> simp [hfirst]

theorem namesAfter_cons (placed : Placed) (name : String) (path : List String) :
    placed.namesAfter (name :: path) = (placed.under name).namesAfter path := by
  simp only [namesAfter, under, List.filterMap_filterMap]
  refine List.filterMap_congr fun e _ => ?_
  obtain ⟨_ | ⟨first, rest⟩, table⟩ := e
  · simp
  · by_cases hfirst : first = name
    · simp [hfirst, List.cons_prefix_cons]
    · simp [hfirst, List.cons_prefix_cons, Ne.symm hfirst]

theorem tablesAt_ne_nil_iff : placed.tablesAt path ≠ [] ↔ ∃ table, (path, table) ∈ placed := by
  simp [tablesAt, List.filterMap_eq_nil_iff]

theorem mem_namesAfter : name ∈ placed.namesAfter path ↔
    ∃ rest table, (path ++ name :: rest, table) ∈ placed := by
  simp only [namesAfter, List.mem_filterMap, Option.ite_none_right_eq_some]
  constructor
  · rintro ⟨⟨_, table⟩, hmem, ⟨rest, rfl⟩, hnext⟩
    rw [List.getElem?_append_right (Nat.le_refl _), Nat.sub_self] at hnext
    cases rest with
    | nil => cases hnext
    | cons first rest =>
      cases hnext
      exact ⟨rest, table, hmem⟩
  · rintro ⟨rest, table, hmem⟩
    refine ⟨_, hmem, List.prefix_append .., ?_⟩
    rw [List.getElem?_append_right (Nat.le_refl _), Nat.sub_self]
    rfl

theorem PrefixFree.of_append {later : Placed} (h : PrefixFree (placed ++ later)) :
    PrefixFree placed := fun e he e' he' =>
  h e (List.mem_append_left later he) e' (List.mem_append_left later he')

theorem PrefixFree.under (h : PrefixFree placed) (name : String) :
    PrefixFree (placed.under name) := by
  intro e he e' he' hthrough
  have hcons := h _ (mem_under.mp he) _ (mem_under.mp he')
    (List.cons_prefix_cons.mpr ⟨rfl, hthrough⟩)
  exact (List.cons.inj hcons).2

end Placed

/-- The value at the path of blocks: the map of a single one, the list of the maps of several. -/
def Value.ofBlocks : List (Table Value) → Value
  | [table] => .map table
  | tables => .list (tables.map .map)

open Value (ofBlocks)

/-- A table that consists of blocks, and of the maps that lead to them. -/
structure Arranged (placed : Placed) (table : Table Value) : Prop where
  blocks : ∀ path, placed.tablesAt path ≠ [] →
    (Value.map table).pointer? path = some (ofBlocks (placed.tablesAt path))
  maps : ∀ path, path = [] ∨ placed.namesAfter path ≠ [] → ∃ entries,
    (Value.map table).pointer? path = some (.map entries) ∧
      Table.keys entries = (placed.namesAfter path).eraseDups

theorem joined?_ofBlocks {tables : List (Table Value)} (h : tables ≠ []) (inner : Table Value) :
    joined? (some (ofBlocks tables)) inner = some (ofBlocks (tables ++ [inner])) := by
  match tables with
  | [table] => rfl
  | first :: second :: rest => simp [ofBlocks, joined?]

namespace Arranged

variable {placed : Placed} {table inner : Table Value} {name : String} {names rest : List String}

theorem nil : Arranged [] [] where
  blocks _ h := absurd rfl h
  maps path h := by
    obtain rfl : path = [] := h.resolve_right fun h => h rfl
    exact ⟨[], rfl, rfl⟩

theorem keys (h : Arranged placed table) :
    Table.keys table = (placed.namesAfter []).eraseDups := by
  obtain ⟨entries, hentries, hkeys⟩ := h.maps [] (.inl rfl)
  cases hentries
  exact hkeys

theorem get?_eq_none_iff (h : Arranged placed table) :
    table.get? name = none ↔ name ∉ placed.namesAfter [] := by
  rw [← List.mem_eraseDups, ← h.keys, ← Table.contains_iff_mem_keys, Table.contains]
  simp

theorem under (h : Arranged placed table) {entries : Table Value}
    (hentries : table.get? name = some (.map entries)) (hname : placed.namesAfter [name] ≠ []) :
    Arranged (placed.under name) entries where
  blocks path hpath := by
    rw [← Placed.tablesAt_cons] at hpath ⊢
    rw [← h.blocks _ hpath, pointer?_map_cons, hentries]
    rfl
  maps path hpath := by
    rw [← Placed.namesAfter_cons] at hpath ⊢
    have hnext : placed.namesAfter (name :: path) ≠ [] := by
      rcases hpath with rfl | hpath
      · exact hname
      · exact hpath
    obtain ⟨entries', hvalue, hkeys⟩ := h.maps (name :: path) (.inr hnext)
    rw [pointer?_map_cons, hentries] at hvalue
    exact ⟨entries', hvalue, hkeys⟩

theorem keys_insert (h : Arranged placed table) (rest : List String) (inner : Table Value)
    (v : Value) : Table.keys (table.insert name v) =
      ((placed ++ [(name :: rest, inner)]).namesAfter []).eraseDups := by
  have hnames : (placed ++ [(name :: rest, inner)]).namesAfter [] =
      placed.namesAfter [] ++ [name] := Placed.namesAfter_append ..
  rw [hnames, List.eraseDups_append, ← h.keys]
  cases hget : table.get? name with
  | none =>
    have hnew : name ∉ placed.namesAfter [] := h.get?_eq_none_iff.mp hget
    rw [Table.keys_insert_of_get?_none hget]
    simp [List.removeAll, hnew, List.eraseDups_cons]
  | some w =>
    have hold : name ∈ placed.namesAfter [] := by
      rw [← not_not (a := name ∈ _), ← h.get?_eq_none_iff, hget]
      simp
    rw [Table.keys_insert_of_contains v (by rw [Table.contains, hget]; rfl)]
    simp [List.removeAll, hold]

theorem insert (h : Arranged placed table) (hplaced : ∀ e ∈ placed, e.1 ≠ []) {v : Value}
    (hblocks : ∀ path, (placed ++ [(name :: rest, inner)]).tablesAt (name :: path) ≠ [] →
      v.pointer? path =
        some (ofBlocks ((placed ++ [(name :: rest, inner)]).tablesAt (name :: path))))
    (hmaps : ∀ path, (placed ++ [(name :: rest, inner)]).namesAfter (name :: path) ≠ [] →
      ∃ entries, v.pointer? path = some (.map entries) ∧ Table.keys entries =
        ((placed ++ [(name :: rest, inner)]).namesAfter (name :: path)).eraseDups) :
    Arranged (placed ++ [(name :: rest, inner)]) (table.insert name v) where
  blocks path hpath := by
    cases path with
    | nil =>
      obtain ⟨t, ht⟩ := Placed.tablesAt_ne_nil_iff.mp hpath
      rcases List.mem_append.mp ht with ht | ht
      · exact absurd rfl (hplaced _ ht)
      · simp at ht
    | cons first path =>
      rw [pointer?_map_cons, Table.get?_insert]
      by_cases hfirst : name = first
      · subst hfirst
        rw [if_pos rfl]
        exact hblocks path hpath
      · have hsame : (placed ++ [(name :: rest, inner)]).tablesAt (first :: path) =
            placed.tablesAt (first :: path) := by
          simp [Placed.tablesAt, hfirst]
        rw [hsame] at hpath ⊢
        rw [if_neg hfirst]
        exact h.blocks _ hpath
  maps path hpath := by
    cases path with
    | nil => exact ⟨_, rfl, h.keys_insert rest inner v⟩
    | cons first path =>
      have hnext : (placed ++ [(name :: rest, inner)]).namesAfter (first :: path) ≠ [] :=
        hpath.resolve_left (List.cons_ne_nil _ _)
      rw [pointer?_map_cons, Table.get?_insert]
      by_cases hfirst : name = first
      · subst hfirst
        rw [if_pos rfl]
        exact hmaps path hnext
      · have hsame : (placed ++ [(name :: rest, inner)]).namesAfter (first :: path) =
            placed.namesAfter (first :: path) := by
          simp [Placed.namesAfter, List.cons_prefix_cons, Ne.symm hfirst]
        rw [hsame] at hnext ⊢
        rw [if_neg hfirst]
        exact h.maps _ (.inr hnext)

theorem enter_single (h : Arranged placed table) (hplaced : ∀ e ∈ placed, e.1 ≠ [])
    (hend : ∀ path, ∀ e ∈ placed ++ [([name], inner)], name :: path <+: e.1 → e.1 = [name]) :
    ∃ table', Reduction.enter table [name] inner = some table' ∧
      Arranged (placed ++ [([name], inner)]) table' := by
  have hjoined : joined? (table.get? name) inner =
      some (ofBlocks (placed.tablesAt [name] ++ [inner])) := by
    by_cases htables : placed.tablesAt [name] = []
    · have hget : table.get? name = none := by
        rw [h.get?_eq_none_iff, Placed.mem_namesAfter]
        rintro ⟨rest, t, hmem⟩
        have hrest : name :: rest = [name] :=
          hend rest _ (List.mem_append_left _ hmem) List.prefix_rfl
        cases hrest
        exact Placed.tablesAt_ne_nil_iff.mpr ⟨t, hmem⟩ htables
      rw [hget, htables]
      rfl
    · have hvalue := h.blocks [name] htables
      rw [pointer?_map_cons, Option.bind_eq_some_iff] at hvalue
      obtain ⟨w, hget, hw⟩ := hvalue
      cases hw
      rw [hget, joined?_ofBlocks htables]
  refine ⟨_, by rw [Reduction.enter_single, hjoined]; rfl, h.insert hplaced ?_ ?_⟩
  · intro path hpath
    obtain ⟨t, hmem⟩ := Placed.tablesAt_ne_nil_iff.mp hpath
    have hnil : name :: path = [name] := hend path _ hmem List.prefix_rfl
    cases hnil
    rw [Placed.tablesAt_append]
    simp [Placed.tablesAt, Value.pointer?]
  · intro path hpath
    obtain ⟨next, hnext⟩ := List.exists_mem_of_ne_nil _ hpath
    obtain ⟨rest, t, hmem⟩ := Placed.mem_namesAfter.mp hnext
    have hlong := congrArg List.length (hend path _ hmem (List.prefix_append ..))
    simp at hlong

theorem exists_entriesAt? (h : Arranged placed table) (hname : ∀ e ∈ placed, e.1 ≠ [name]) :
    ∃ entries, entriesAt? (table.get? name) = some entries ∧
      Arranged (placed.under name) entries := by
  by_cases hmem : name ∈ placed.namesAfter []
  · obtain ⟨rest, t, hrest⟩ := Placed.mem_namesAfter.mp hmem
    cases rest with
    | nil => exact absurd rfl (hname _ hrest)
    | cons next rest =>
      have hnext : next ∈ placed.namesAfter [name] := Placed.mem_namesAfter.mpr ⟨rest, t, hrest⟩
      obtain ⟨entries, hvalue, -⟩ := h.maps [name] (.inr (List.ne_nil_of_mem hnext))
      rw [pointer?_map_cons, Option.bind_eq_some_iff] at hvalue
      obtain ⟨w, hget, hw⟩ := hvalue
      cases hw
      exact ⟨entries, by rw [hget]; rfl, h.under hget (List.ne_nil_of_mem hnext)⟩
  · have hunder : placed.under name = [] := by
      refine List.eq_nil_iff_forall_not_mem.mpr fun e he => hmem ?_
      exact Placed.mem_namesAfter.mpr ⟨e.1, e.2, Placed.mem_under.mp he⟩
    rw [h.get?_eq_none_iff.mpr hmem, hunder]
    exact ⟨[], rfl, .nil⟩

theorem enter (h : Arranged placed table) (hnames : names ≠ []) (hplaced : ∀ e ∈ placed, e.1 ≠ [])
    (hfree : (placed ++ [(names, inner)]).PrefixFree) :
    ∃ table', Reduction.enter table names inner = some table' ∧
      Arranged (placed ++ [(names, inner)]) table' := by
  induction names generalizing placed table with
  | nil => exact absurd rfl hnames
  | cons name rest ih =>
    have hlast : (name :: rest, inner) ∈ placed ++ [(name :: rest, inner)] := by simp
    cases rest with
    | nil =>
      refine h.enter_single hplaced fun path e he hthrough => ?_
      exact (hfree _ hlast e he (.trans (by simp) hthrough)).symm
    | cons next rest =>
      have hname : ∀ e ∈ placed, e.1 ≠ [name] := fun e he heq => by
        have hsame := hfree e (List.mem_append_left _ he) _ hlast (by simp [heq])
        simp [heq] at hsame
      have hunder : (placed ++ [(name :: next :: rest, inner)]).under name =
          placed.under name ++ [(next :: rest, inner)] := by
        rw [Placed.under_append]
        simp [Placed.under]
      obtain ⟨entries, hentries, harranged⟩ := h.exists_entriesAt? hname
      obtain ⟨entries', henter, harranged'⟩ := ih harranged (List.cons_ne_nil _ _)
        (fun e he heq => hname _ (Placed.mem_under.mp he) (by rw [heq])) (hunder ▸ hfree.under name)
      refine ⟨_, by rw [Reduction.enter_cons, hentries, Option.bind_some, henter]; rfl,
        h.insert hplaced ?_ ?_⟩
      · intro path hpath
        rw [Placed.tablesAt_cons, hunder] at hpath ⊢
        exact harranged'.blocks path hpath
      · intro path hpath
        rw [Placed.namesAfter_cons, hunder] at hpath ⊢
        exact harranged'.maps path (.inr hpath)

end Arranged

structure Block where
  names : List String
  body : List Node
  position : Option Position

namespace Block

def node (block : Block) : Node := .block block.names block.body block.position

variable (setting : Setting) (depth : ℕ) (s : State) (block : Block)

def alone : (Except Stop Unit × Table Value) × State :=
  (structureEach (reduceNode setting depth) block.body).outcome [] s

def placedAlone : List String × Table Value := (block.names, (block.alone setting depth s).1.2)

end Block

theorem structureEach_blocks {setting : Setting} (hsetting : setting.HistoryFree) {depth : ℕ}
    {s : State} {blocks : List Block} (hnames : ∀ block ∈ blocks, block.names ≠ [])
    (hbodies : ∀ block ∈ blocks, (block.alone setting depth s).1.1 = .ok ()) {placed : Placed}
    (hplaced : ∀ e ∈ placed, e.1 ≠ [])
    (hfree : (placed ++ blocks.map (·.placedAlone setting depth s)).PrefixFree)
    {table : Table Value} (h : Arranged placed table) {cache : LookupCache} {t : State}
    (hst : s.Starting cache t) :
    ∃ table' t',
      (structureEach (reduceNode setting depth) (blocks.map Block.node)).outcome table t =
        ((.ok (), table'), t') ∧
      Arranged (placed ++ blocks.map (·.placedAlone setting depth s)) table' := by
  induction blocks generalizing placed table t with
  | nil => exact ⟨table, t, rfl, by simpa using h⟩
  | cons block rest ih =>
    rw [List.forall_mem_cons] at hnames hbodies
    rw [List.map_cons, List.append_cons] at hfree
    have hbody : (structureEach (reduceNode setting depth) block.body).outcome [] s =
        ((.ok (), (block.alone setting depth s).1.2), (block.alone setting depth s).2) := by
      rw [← hbodies.1]
      rfl
    obtain ⟨t₁, hagain, hst₁⟩ := structureEach_again hsetting hst hbody
    obtain ⟨table₁, henter, harranged⟩ := h.enter hnames.1 hplaced hfree.of_append
    have hblock : (structureNode (reduceNode setting depth) block.node).outcome table t =
        ((.ok (), table₁), t₁) := outcome_block_of_enter hnames.1 hagain henter
    have hplaced' : ∀ e ∈ placed ++ [block.placedAlone setting depth s], e.1 ≠ [] := by
      intro e he
      rcases List.mem_append.mp he with he | he
      · exact hplaced e he
      · rw [List.mem_singleton.mp he]
        exact hnames.1
    obtain ⟨table', t', hrest, hdone⟩ := ih hnames.2 hbodies.2 hplaced' hfree harranged hst₁
    refine ⟨table', t', ?_, ?_⟩
    · rw [List.map_cons, structureEach, Build.outcome_bind, hblock]
      exact hrest
    · rw [List.map_cons, List.append_cons]
      exact hdone

/-- Repeated blocks become lists and stay separate: a sequence of blocks none of whose paths leads
through another, and whose bodies succeed alone, succeeds as a whole. At each path is what the
bodies of its blocks built alone, a map for a single block and a list for several, and there is
nothing else but the maps that lead there. -/
theorem repeated_blocks_stay_separate {setting : Setting} (hsetting : setting.HistoryFree)
    (depth : ℕ) {s : State} (hs : s.document = []) {blocks : List Block}
    (hnames : ∀ block ∈ blocks, block.names ≠ [])
    (hthrough : ∀ block ∈ blocks, ∀ block' ∈ blocks, block.names <+: block'.names →
      block.names = block'.names)
    (hbodies : ∀ block ∈ blocks, (block.alone setting depth s).1.1 = .ok ()) :
    ∃ table s', (structureEach (reduceNode setting depth) (blocks.map Block.node)).outcome [] s =
        ((.ok (), table), s') ∧
      Arranged (blocks.map (·.placedAlone setting depth s)) table := by
  have hfree : Placed.PrefixFree (blocks.map (·.placedAlone setting depth s)) := by
    intro e he e' he'
    obtain ⟨block, hblock, rfl⟩ := List.mem_map.mp he
    obtain ⟨block', hblock', rfl⟩ := List.mem_map.mp he'
    exact hthrough block hblock block' hblock'
  simpa using structureEach_blocks hsetting hnames hbodies (by simp) hfree .nil (.refl hs)

def serviceBlocks : List Block :=
  [⟨["service", "api"], [.named "port" [.string "a"] none], none⟩,
    ⟨["service", "web"], [.named "port" [.string "b"] none], none⟩,
    ⟨["service", "api"], [.block ["check"] [] none], none⟩]

theorem repeated_blocks_stay_separate_services :
    ∃ table s',
      (structureEach (reduceNode emptySetting 4) (serviceBlocks.map Block.node)).outcome [] {} =
        ((.ok (), table), s') ∧
      Table.keys table = ["service"] ∧
      (Value.map table).pointer? ["service", "api"] =
        some (.list [.map [("port", .string "a")], .map [("check", .map [])]]) ∧
      (Value.map table).pointer? ["service", "web"] = some (.map [("port", .string "b")]) := by
  have hfree : emptySetting.HistoryFree := fun h => by cases h
  have hnames : ∀ block ∈ serviceBlocks, block.names ≠ [] := by decide
  obtain ⟨table, s', hrun, harranged⟩ := repeated_blocks_stay_separate hfree 4
    (rfl : ({} : State).document = []) hnames (by decide) (by decide)
  exact ⟨table, s', hrun, harranged.keys, harranged.blocks ["service", "api"] (by decide),
    harranged.blocks ["service", "web"] (by decide)⟩

end HclEval
