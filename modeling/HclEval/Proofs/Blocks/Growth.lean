import HclEval.Proofs.Blocks.Placement
import HclEval.Proofs.Once.Places

/-!
What a block leaves of a value. Maps get further entries, lists get further items, and a map may
become the first item of a list: nothing is lost, and every map is found again at a place with the
same keys, where it is not in the way of the map of the block.
-/
namespace HclEval

namespace Value

/-- A value with whatever blocks have added to it. -/
inductive Grows : Value → Value → Prop
  | refl (v : Value) : Grows v v
  | map {entries entries' : Table Value}
      (keys : ∀ name, Table.contains entries name = true → Table.contains entries' name = true)
      (below : ∀ name v v', Table.get? entries name = some v → Table.get? entries' name = some v' →
        Grows v v') : Grows (.map entries) (.map entries')
  | list (items more : List Value) : Grows (.list items) (.list (items ++ more))
  | first {entries entries' : Table Value} (h : Grows (.map entries) (.map entries'))
      (more : List Value) : Grows (.map entries) (.list (.map entries' :: more))

def isCollection : Value → Bool
  | list _ | map _ => true
  | _ => false

namespace Grows

variable {u v w : Value} {entries entries' : Table Value} {name : String}

theorem exists_get? (h : Grows (.map entries) (.map entries'))
    (hv : Table.get? entries name = some v) :
    ∃ v', Table.get? entries' name = some v' ∧ v.Grows v' := by
  cases h with
  | refl => exact ⟨v, hv, .refl v⟩
  | map keys below =>
    have hname : Table.contains entries' name = true := keys name (by rw [Table.contains, hv]; rfl)
    obtain ⟨v', hv'⟩ := Option.isSome_iff_exists.mp hname
    exact ⟨v', hv', below name v v' hv hv'⟩

theorem contains (h : Grows (.map entries) (.map entries'))
    (hname : Table.contains entries name = true) : Table.contains entries' name = true := by
  obtain ⟨v, hv⟩ := Option.isSome_iff_exists.mp hname
  obtain ⟨v', hv', -⟩ := h.exists_get? hv
  rw [Table.contains, hv']
  rfl

theorem map_of_below (h : Grows (.map entries) (.map entries')) {entries'' : Table Value}
    (h' : Grows (.map entries') (.map entries''))
    (hbelow : ∀ name u v, Table.get? entries name = some u → Table.get? entries' name = some v →
      ∀ w, v.Grows w → u.Grows w) : Grows (.map entries) (.map entries'') := by
  refine .map (fun name hname => h'.contains (h.contains hname)) fun name u w hu hw => ?_
  obtain ⟨v, hv, -⟩ := h.exists_get? hu
  obtain ⟨w', hw', hvw⟩ := h'.exists_get? hv
  cases hw.symm.trans hw'
  exact hbelow name u v hu hv w hvw

theorem trans (h : u.Grows v) (h' : v.Grows w) : u.Grows w := by
  induction h generalizing w with
  | refl => exact h'
  | map keys below ih =>
    cases h' with
    | refl => exact .map keys below
    | map keys' below' =>
      exact map_of_below (.map keys below) (.map keys' below') fun name u v hu hv _ =>
        ih name u v hu hv
    | first h' more =>
      exact .first (map_of_below (.map keys below) h' fun name u v hu hv _ =>
        ih name u v hu hv) more
  | list items more =>
    cases h' with
    | refl => exact .list items more
    | list _ more' =>
      rw [List.append_assoc]
      exact .list items (more ++ more')
  | first h more =>
    cases h' with
    | refl => exact .first h more
    | list _ more' => exact .first h (more ++ more')

theorem isCollection_eq (h : v.Grows w) : w.isCollection = v.isCollection := by
  cases h <;> rfl

theorem insert {table : Table Value} (h : ∀ v, table.get? name = some v → v.Grows w) :
    Grows (.map table) (.map (table.insert name w)) := by
  refine .map (fun name' hname' => ?_) fun name' v v' hv hv' => ?_
  · rw [Table.contains, Table.get?_insert]
    split
    · rfl
    · exact hname'
  · rw [Table.get?_insert] at hv'
    split at hv'
    · rename_i hname
      subst hname
      cases hv'
      exact h v hv
    · cases hv.symm.trans hv'
      exact .refl v

end Grows
end Value

def Step.key? : Step → Option String
  | .key name => some name
  | .index _ => none

def keysOf (path : Path) : List String := path.filterMap Step.key?

theorem keysOf_append (path way : Path) : keysOf (path ++ way) = keysOf path ++ keysOf way :=
  List.filterMap_append ..

structure Relocation (move : Path → Path) : Prop where
  injective : Function.Injective move
  keys : ∀ path, keysOf (move path) = keysOf path
  inside : ∀ path way, move path <+: move (path ++ way)

def atKey (name : String) (move : Path → Path) : Path → Path
  | .key first :: rest => if first = name then .key name :: move rest else .key first :: rest
  | path => path

namespace Relocation

variable {move : Path → Path}

theorem id : Relocation id where
  injective := Function.injective_id
  keys _ := rfl
  inside := List.prefix_append

theorem first : Relocation (.index 0 :: ·) where
  injective := List.cons_injective
  keys _ := rfl
  inside path way := List.cons_prefix_cons.mpr ⟨rfl, List.prefix_append path way⟩

theorem exists_way (h : Relocation move) (path way : Path) :
    ∃ way', move (path ++ way) = move path ++ way' ∧ keysOf way' = keysOf way := by
  obtain ⟨way', hway⟩ := h.inside path way
  have hkeys := h.keys (path ++ way)
  rw [← hway, keysOf_append, keysOf_append, h.keys] at hkeys
  exact ⟨way', hway.symm, List.append_cancel_left hkeys⟩

theorem atKey (h : Relocation move) (name : String) : Relocation (atKey name move) where
  injective path path' heq := by
    match path, path' with
    | [], [] => rfl
    | .index _ :: _, .index _ :: _ => exact heq
    | [], .index _ :: _ | .index _ :: _, [] => cases heq
    | [], .key _ :: _ | .key _ :: _, [] | .key _ :: _, .index _ :: _ | .index _ :: _, .key _ :: _ =>
      simp only [HclEval.atKey] at heq
      split at heq <;> cases heq
    | .key a :: rest, .key b :: rest' =>
      simp only [HclEval.atKey] at heq
      split at heq <;> split at heq <;> simp only [List.cons.injEq, Step.key.injEq] at heq
      · rename_i ha hb
        rw [ha, hb, h.injective heq.2]
      · rename_i ha hb
        exact absurd heq.1.symm hb
      · rename_i ha hb
        exact absurd heq.1 ha
      · rw [heq.1, heq.2]
  keys path := by
    match path with
    | [] | .index _ :: _ => rfl
    | .key a :: rest =>
      simp only [HclEval.atKey]
      split
      · rename_i ha
        subst ha
        exact congrArg (a :: ·) (h.keys rest)
      · rfl
  inside path way := by
    match path with
    | [] => exact List.nil_prefix
    | .index i :: rest => exact List.prefix_append (.index i :: rest) way
    | .key a :: rest =>
      simp only [List.cons_append, HclEval.atKey]
      split
      · exact List.cons_prefix_cons.mpr ⟨rfl, h.inside rest way⟩
      · exact List.prefix_append (.key a :: rest) way

end Relocation

/-- The maps of a value are found in another one, grown, and outside of a place. -/
structure Moved (move : Path → Path) (place : Path) (v w : Value) : Prop where
  maps : ∀ path entries, v.at? path = some (.map entries) → ∃ entries',
    w.at? (move path) = some (.map entries') ∧ (Value.map entries).Grows (.map entries')
  free : ∀ path entries, v.at? path = some (.map entries) → ¬ place <+: move path

open Reduction

theorem Value.at?_map_key (table : Table Value) (name : String) (path : Path) :
    (Value.map table).at? (.key name :: path) = (table.get? name).bind (·.at? path) := rfl

variable {table table' inner : Table Value} {name : String} {names : List String}

theorem Moved.insert {move : Path → Path} {place : Path} {w : Value}
    (h : ∀ v, table.get? name = some v → v.Grows w ∧ Moved move place v w) :
    Moved (atKey name move) (.key name :: place) (.map table) (.map (table.insert name w)) where
  maps path entries hpath := by
    match path with
    | [] =>
      cases hpath
      exact ⟨_, rfl, .insert fun v hv => (h v hv).1⟩
    | .key first :: rest =>
      rw [Value.at?_map_key] at hpath
      simp only [atKey]
      split
      · rename_i hfirst
        subst hfirst
        obtain ⟨v, hv, hrest⟩ := Option.bind_eq_some_iff.mp hpath
        rw [Value.at?_map_key, Table.get?_insert, if_pos rfl]
        exact (h v hv).2.maps rest entries hrest
      · rename_i hfirst
        rw [Value.at?_map_key, Table.get?_insert, if_neg (Ne.symm hfirst)]
        exact ⟨entries, hpath, .refl _⟩
    | .index _ :: _ => cases hpath
  free path entries hpath hplace := by
    match path with
    | [] => exact absurd hplace (by simp [atKey])
    | .key first :: rest =>
      simp only [atKey] at hplace
      split at hplace
      · rename_i hfirst
        subst hfirst
        obtain ⟨v, hv, hrest⟩ := Option.bind_eq_some_iff.mp hpath
        exact (h v hv).2.free rest entries hrest (List.cons_prefix_cons.mp hplace).2
      · rename_i hfirst
        exact hfirst (Step.key.inj (List.cons_prefix_cons.mp hplace).1).symm
    | .index _ :: _ => cases hpath

theorem moved_first (entries inner : Table Value) :
    Moved (.index 0 :: ·) [.index 1] (.map entries) (.list [.map entries, .map inner]) where
  maps _ entries' h := ⟨entries', h, .refl _⟩
  free _ _ _ hplace := by
    have hindex := (List.cons_prefix_cons.mp hplace).1
    cases hindex

theorem moved_last (items : List Value) (inner : Table Value) :
    Moved id [.index items.length] (.list items) (.list (items ++ [.map inner])) where
  maps path entries h := by
    match path with
    | [] | .key _ :: _ => cases h
    | .index i :: rest =>
      simp only [Value.at?, Value.child?, Option.bind_eq_some_iff] at h
      obtain ⟨item, hitem, hrest⟩ := h
      have hi := (List.getElem?_eq_some_iff.mp hitem).1
      refine ⟨entries, ?_, .refl _⟩
      simp only [id, Value.at?, Value.child?, List.getElem?_append_left hi, hitem, Option.bind_some]
      exact hrest
  free path entries h hplace := by
    obtain ⟨way, rfl⟩ := hplace
    simp [Value.at?, Value.child?] at h

structure BlockEntry (names : List String) (inner table table' : Table Value) (move : Path → Path)
    (place : Path) : Prop where
  relocation : Relocation move
  root : move [] = []
  moved : Moved move place (.map table) (.map table')
  keys : keysOf place = names
  at? : (Value.map table').at? place = some (.map inner)

theorem BlockEntry.insert {move : Path → Path} (hmove : Relocation move) (place : Path) {w : Value}
    (h : ∀ v, table.get? name = some v → v.Grows w ∧ Moved move place v w)
    (hplace : w.at? place = some (.map inner)) :
    BlockEntry (name :: keysOf place) inner table (table.insert name w) (atKey name move)
      (.key name :: place) where
  relocation := hmove.atKey name
  root := rfl
  moved := .insert h
  keys := rfl
  at? := by rw [Value.at?_map_key, Table.get?_insert, if_pos rfl, Option.bind_some, hplace]

theorem exists_entry_single (h : enter table [name] inner = some table') :
    ∃ move place, BlockEntry [name] inner table table' move place := by
  rw [enter_single, Option.map_eq_some_iff] at h
  obtain ⟨w, hjoined, rfl⟩ := h
  cases hget : table.get? name with
  | none =>
    rw [hget] at hjoined
    cases hjoined
    exact ⟨_, _, .insert .id [] (by simp [hget]) rfl⟩
  | some v =>
    rw [hget] at hjoined
    cases v <;> simp only [joined?, Option.some.injEq, reduceCtorEq] at hjoined
    case map prior =>
      subst hjoined
      refine ⟨_, _, .insert .first [.index 1] (fun v hv => ?_) rfl⟩
      cases hget.symm.trans hv
      exact ⟨.first (.refl _) _, moved_first prior inner⟩
    case list items =>
      subst hjoined
      refine ⟨_, _, .insert .id [.index items.length] (fun v hv => ?_) ?_⟩
      · cases hget.symm.trans hv
        exact ⟨.list items _, moved_last items inner⟩
      · simp [Value.at?, Value.child?]

theorem exists_entry (hnames : names ≠ []) (h : enter table names inner = some table') :
    ∃ move place, BlockEntry names inner table table' move place := by
  induction names generalizing table table' with
  | nil => exact absurd rfl hnames
  | cons name rest ih =>
    cases rest with
    | nil => exact exists_entry_single h
    | cons next rest =>
      rw [enter_cons, Option.map_eq_some_iff] at h
      obtain ⟨entries', hbelow, rfl⟩ := h
      obtain ⟨entries, hentries, henter⟩ := Option.bind_eq_some_iff.mp hbelow
      obtain ⟨move, place, hentry⟩ := ih (List.cons_ne_nil _ _) henter
      rw [← hentry.keys]
      refine ⟨_, _, .insert hentry.relocation place (fun v hv => ?_) hentry.at?⟩
      rw [hv] at hentries
      cases v <;> simp only [entriesAt?, Option.some.injEq, reduceCtorEq] at hentries
      subst hentries
      obtain ⟨_, hgrown, hgrows⟩ := hentry.moved.maps [] _ rfl
      rw [hentry.root] at hgrown
      cases hgrown
      exact ⟨hgrows, hentry.moved⟩

end HclEval
