import HclEval.Proofs.Blocks.Growth

/-!
Placing a block as a whole. Either something is in the way, and then the table is what it was, or
the block gets a new map: at the end of its path, or behind what is there. A walk along the names
may therefore write as it goes. It creates the maps that it misses before it knows where it ends,
but once it has created one, nothing can be in its way.
-/
namespace HclEval

open Reduction

namespace Value

variable {v : Value} (h : v.isCollection = false)
include h

theorem ne_map (entries : Table Value) : v ≠ .map entries := by
  rintro rfl
  cases h

theorem ne_list (items : List Value) : v ≠ .list items := by
  rintro rfl
  cases h

theorem map?_eq_none : v.map? = none := by
  cases v with
  | map entries => cases h
  | _ => rfl

end Value

namespace Reduction

/-- The entry of a name that a walk goes on from. A name that is missing gets an empty map, and a
map at the last name becomes the only item of a list. -/
def opened (table : Table Value) (name : String) (last : Bool) : Table Value :=
  match table.get? name with
  | none => table.insert name (.map [])
  | some (.map prior) => if last then table.insert name (.list [.map prior]) else table
  | some _ => table

/-- Places a block by a walk that writes to the table as it goes. Answers where the new map is, or
what is in the way, and the table as the walk leaves it. -/
def walk (table : Table Value) : List String →
    Except (Obstacle × List String) Path × Table Value
  | [] => (.ok [], table)
  | name :: rest =>
    let table := opened table name rest.isEmpty
    match table.get? name with
    | some (.map entries) =>
      match walk entries rest with
      | (.ok path, entries) => (.ok (.key name :: path), table.insert name (.map entries))
      | (.error (obstacle, names), entries) =>
        (.error (obstacle, name :: names), table.insert name (.map entries))
    | some (.list items) =>
      if rest.isEmpty then
        (.ok [.key name, .index items.length], table.insert name (.list (items ++ [.map []])))
      else (.error (.array, [name]), table)
    | _ => (.error (.value, [name]), table)

/-- What is at the end of some of the names is in the way of a block: a list before the last of
them, or anything that is neither a list nor a map. -/
def Obstructs (table : Table Value) (names stopped : List String) (obstacle : Obstacle) : Prop :=
  stopped <+: names ∧ stopped ≠ [] ∧
    match obstacle with
    | .array => stopped ≠ names ∧ ∃ items, (Value.map table).pointer? stopped = some (.list items)
    | .value => ∃ v, (Value.map table).pointer? stopped = some v ∧ v.isCollection = false

def keysAt (table : Table Value) (names : List String) : List String :=
  Table.keys ((((Value.map table).pointer? names).bind Value.map?).getD [])

/-- The second table is the first with room for a block under its names, at a location. -/
structure MadeRoom (table : Table Value) (names : List String) (table' : Table Value)
    (path : Path) : Prop where
  fresh : (Value.map table').at? path = some (.map [])
  location : path = names.map .key ++
    match (Value.map table).pointer? names with
    | none => []
    | some (.list items) => [.index items.length]
    | some _ => [.index 1]
  /-- A map that was there is the first item of a list now, and a list keeps its items. -/
  joined : (Value.map table').pointer? names = joined? ((Value.map table).pointer? names) []
  onTheWay : ∀ before next, before ++ [next] <+: names →
    (∃ entries, (Value.map table').pointer? before = some (.map entries)) ∧
      keysAt table' before =
        if next ∈ keysAt table before then keysAt table before else keysAt table before ++ [next]
  /-- Nothing else changes, and nothing else is new. -/
  elsewhere : ∀ other : Path, ¬ other <+: names.map .key → ¬ names.map .key <+: other →
    (Value.map table').at? other = (Value.map table).at? other

def below (table : Table Value) (name : String) :
    Except (Obstacle × List String) (Table Value × Path) →
      Except (Obstacle × List String) (Table Value × Path)
  | .ok (entries, path) => .ok (table.insert name (.map entries), .key name :: path)
  | .error (obstacle, names) => .error (obstacle, name :: names)

theorem entry_cases (v? : Option Value) : v? = none ∨ (∃ entries, v? = some (.map entries)) ∨
    (∃ items, v? = some (.list items)) ∨ ∃ v, v? = some v ∧ v.isCollection = false := by
  rcases v? with _ | v
  · exact .inl rfl
  cases v with
  | map entries => exact .inr (.inl ⟨entries, rfl⟩)
  | list items => exact .inr (.inr (.inl ⟨items, rfl⟩))
  | _ => exact .inr (.inr (.inr ⟨_, rfl, rfl⟩))

section
variable {table table' entries : Table Value} {name next : String} {names rest : List String}
  {items : List Value} {v : Value} {path : Path}

theorem place_single_value (h : table.get? name = some v) (hv : v.isCollection = false) :
    place table [name] = .error (.value, [name]) := by
  cases v with
  | map entries => cases hv
  | list items => cases hv
  | _ => simp [place, placeLast, h]

theorem get?_of_entriesAt? (h : entriesAt? (table.get? name) = some entries) :
    table.get? name = none ∧ entries = [] ∨ table.get? name = some (.map entries) := by
  rcases entry_cases (table.get? name) with h' | ⟨prior, h'⟩ | ⟨items, h'⟩ | ⟨v, h', hv⟩ <;>
    rw [h'] at h ⊢
  · cases h
    exact .inl ⟨rfl, rfl⟩
  · cases h
    exact .inr rfl
  · cases h
  · cases v with
    | map prior => cases hv
    | _ => cases h

theorem place_cons (h : entriesAt? (table.get? name) = some entries) :
    place table (name :: next :: rest) = below table name (place entries (next :: rest)) := by
  rcases get?_of_entriesAt? h with ⟨hget, rfl⟩ | hget <;>
  · simp only [place, hget, Except.bind]
    rfl

theorem place_cons_none (h : table.get? name = none) :
    place table (name :: next :: rest) = below table name (place [] (next :: rest)) :=
  place_cons (by rw [h]; rfl)

theorem place_cons_map (h : table.get? name = some (.map entries)) :
    place table (name :: next :: rest) = below table name (place entries (next :: rest)) :=
  place_cons (by rw [h]; rfl)

theorem place_cons_list (h : table.get? name = some (.list items)) :
    place table (name :: next :: rest) = .error (.array, [name]) := by
  simp only [place, h, Except.bind]

theorem place_cons_value (h : table.get? name = some v) (hv : v.isCollection = false) :
    place table (name :: next :: rest) = .error (.value, [name]) := by
  cases v with
  | map entries => cases hv
  | list items => cases hv
  | _ => simp only [place, h, Except.bind]

end

section
variable {table entries : Table Value} {name : String} {names rest stopped : List String}
  {obstacle : Obstacle}

theorem pointer?_single (table : Table Value) (name : String) :
    (Value.map table).pointer? [name] = table.get? name := by
  rw [pointer?_map_cons]
  cases table.get? name <;> rfl

theorem obstructs_single : Obstructs table (name :: rest) [name] obstacle ↔
    match obstacle with
    | .array => rest ≠ [] ∧ ∃ items, table.get? name = some (.list items)
    | .value => ∃ v, table.get? name = some v ∧ v.isCollection = false := by
  have hprefix : [name] <+: name :: rest := List.prefix_append [name] rest
  have hlast : [name] ≠ name :: rest ↔ rest ≠ [] := by
    rw [ne_eq, List.cons_inj_right]
    exact not_congr eq_comm
  cases obstacle with
  | array => simp [Obstructs, pointer?_single, hprefix, hlast]
  | value => simp [Obstructs, pointer?_single, hprefix]

theorem obstructs_cons (hstopped : stopped ≠ []) :
    Obstructs table (name :: rest) (name :: stopped) obstacle ↔
      ∃ entries, table.get? name = some (.map entries) ∧
        Obstructs entries rest stopped obstacle := by
  obtain ⟨first, more, rfl⟩ := List.exists_cons_of_ne_nil hstopped
  have hpointer : (Value.map table).pointer? (name :: first :: more) =
      ((table.get? name).bind Value.map?).bind fun entries =>
        (Value.map entries).pointer? (first :: more) := by
    rw [pointer?_map_cons, Option.bind_assoc]
    congr 1
  rcases entry_cases (table.get? name) with h | ⟨entries, h⟩ | ⟨items, h⟩ | ⟨v, h, hv⟩
  · cases obstacle <;> simp [Obstructs, hpointer, h]
  · cases obstacle <;> simp [Obstructs, hpointer, h, Value.map?, List.cons_prefix_cons]
  · cases obstacle <;> simp [Obstructs, hpointer, h, Value.map?]
  · cases obstacle <;> simp [Obstructs, hpointer, h, Value.map?_eq_none hv, Value.ne_map hv]

theorem obstructs_cons_iff : Obstructs table (name :: rest) stopped obstacle ↔
    (stopped = [name] ∧ Obstructs table (name :: rest) [name] obstacle) ∨
      ∃ more entries, stopped = name :: more ∧ table.get? name = some (.map entries) ∧
        Obstructs entries rest more obstacle := by
  constructor
  · intro h
    obtain ⟨first, more, rfl⟩ := List.exists_cons_of_ne_nil h.2.1
    obtain ⟨rfl, -⟩ := List.cons_prefix_cons.mp h.1
    by_cases hmore : more = []
    · subst hmore
      exact .inl ⟨rfl, h⟩
    · obtain ⟨entries, hentries, hinside⟩ := (obstructs_cons hmore).mp h
      exact .inr ⟨more, entries, rfl, hentries, hinside⟩
  · rintro (⟨rfl, h⟩ | ⟨more, entries, rfl, hentries, hinside⟩)
    · exact h
    · exact (obstructs_cons hinside.2.1).mpr ⟨entries, hentries, hinside⟩

theorem not_obstructs_of_nil : ¬ Obstructs table [] stopped obstacle :=
  fun h => h.2.1 (List.prefix_nil.mp h.1)

theorem place_nil (next : String) (rest : List String) :
    ∃ room, place [] (next :: rest) = .ok room := by
  induction rest generalizing next with
  | nil => exact ⟨_, rfl⟩
  | cons second rest ih =>
    obtain ⟨room, hroom⟩ := ih second
    rw [place_cons_none rfl, hroom]
    exact ⟨_, rfl⟩

theorem below_eq_error {result : Except (Obstacle × List String) (Table Value × Path)} :
    below table name result = .error (obstacle, stopped) ↔
      ∃ more, stopped = name :: more ∧ result = .error (obstacle, more) := by
  rcases result with ⟨obstacle', more⟩ | ⟨entries, path⟩
  · simp only [below, Except.error.injEq, Prod.mk.injEq]
    aesop
  · simp [below]

theorem place_eq_error_iff (hnames : names ≠ []) :
    place table names = .error (obstacle, stopped) ↔ Obstructs table names stopped obstacle := by
  induction names generalizing table stopped with
  | nil => exact absurd rfl hnames
  | cons name rest ih =>
    have hname : [name] = stopped ↔ stopped = [name] := eq_comm
    rw [obstructs_cons_iff, obstructs_single]
    cases rest with
    | nil =>
      rcases entry_cases (table.get? name) with h | ⟨entries, h⟩ | ⟨items, h⟩ | ⟨v, h, hv⟩
      · cases obstacle <;> simp [place, placeLast, h]
      · cases obstacle <;> simp [place, placeLast, h, not_obstructs_of_nil, Value.isCollection]
      · cases obstacle <;> simp [place, placeLast, h, Value.isCollection]
      · rw [place_single_value h hv]
        cases obstacle <;> simp [h, hv, Value.ne_map hv, hname]
    | cons next rest =>
      rcases entry_cases (table.get? name) with h | ⟨entries, h⟩ | ⟨items, h⟩ | ⟨v, h, hv⟩
      · obtain ⟨room, hroom⟩ := place_nil next rest
        cases obstacle <;> simp [place_cons_none h, hroom, below, h]
      · rw [place_cons_map h, below_eq_error]
        cases obstacle <;> simp [h, ih, Value.isCollection]
      · rw [place_cons_list h]
        cases obstacle <;> simp [h, Value.isCollection, hname]
      · rw [place_cons_value h hv]
        cases obstacle <;> simp [h, hv, Value.ne_map hv, Value.ne_list hv, hname]

theorem Obstructs.unique (hnames : names ≠ []) (h : Obstructs table names stopped obstacle)
    {stopped' : List String} {obstacle' : Obstacle}
    (h' : Obstructs table names stopped' obstacle') :
    stopped' = stopped ∧ obstacle' = obstacle := by
  have herror := (place_eq_error_iff hnames).mpr h
  rw [(place_eq_error_iff hnames).mpr h'] at herror
  cases herror
  exact ⟨rfl, rfl⟩

theorem walk_of_value {v : Value} (h : table.get? name = some v) (hv : v.isCollection = false)
    (rest : List String) : walk table (name :: rest) = (.error (.value, [name]), table) := by
  cases v with
  | map entries => cases hv
  | list items => cases hv
  | _ => simp [walk, opened, h]

/-- A walk comes to the same as a placement, and has not changed the table where it fails. -/
theorem walk_eq (table : Table Value) (names : List String) :
    walk table names =
      match place table names with
      | .ok (table', path) => (.ok path, table')
      | .error obstruction => (.error obstruction, table) := by
  induction names generalizing table with
  | nil => rfl
  | cons name rest ih =>
    cases rest with
    | nil =>
      rcases entry_cases (table.get? name) with h | ⟨entries, h⟩ | ⟨items, h⟩ | ⟨v, h, hv⟩
      · simp [walk, opened, place, placeLast, h, Table.get?_insert, Table.insert_insert]
      · simp [walk, opened, place, placeLast, h, Table.get?_insert, Table.insert_insert]
      · simp [walk, opened, place, placeLast, h]
      · rw [place_single_value h hv, walk_of_value h hv]
    | cons next rest =>
      rcases entry_cases (table.get? name) with h | ⟨entries, h⟩ | ⟨items, h⟩ | ⟨v, h, hv⟩
      · -- behind a map that the walk has created there is nothing in the way
        obtain ⟨room, hroom⟩ := place_nil next rest
        have hwalk := ih []
        rw [hroom] at hwalk
        rw [place_cons_none h, hroom, walk]
        simp [opened, h, Table.get?_insert, Table.insert_insert, below, hwalk]
      · rw [place_cons_map h, walk]
        simp only [opened, h, ih, List.isEmpty_cons, Bool.false_eq_true, if_false]
        rcases place entries (next :: rest) with obstruction | room
        · simp only [below, Table.insert_of_get? h]
        · rfl
      · rw [place_cons_list h, walk]
        simp [opened, h]
      · rw [place_cons_value h hv, walk_of_value h hv]

end

section
variable {table table' entries entries' : Table Value} {name next : String}
  {names rest : List String} {path : Path}

theorem pointer?_of_entriesAt? (h : entriesAt? (table.get? name) = some entries)
    (hrest : rest ≠ []) :
    (Value.map table).pointer? (name :: rest) = (Value.map entries).pointer? rest := by
  obtain ⟨first, more, rfl⟩ := List.exists_cons_of_ne_nil hrest
  rw [pointer?_map_cons]
  rcases get?_of_entriesAt? h with ⟨hget, rfl⟩ | hget <;>
  · rw [hget]
    rfl

theorem keysAt_of_entriesAt? (h : entriesAt? (table.get? name) = some entries)
    (names : List String) : keysAt table (name :: names) = keysAt entries names := by
  cases names with
  | nil =>
    rw [keysAt, pointer?_single]
    rcases get?_of_entriesAt? h with ⟨hget, rfl⟩ | hget <;>
    · rw [hget]
      rfl
  | cons first more =>
    rw [keysAt, pointer?_of_entriesAt? h (List.cons_ne_nil _ _), keysAt]

theorem at?_of_entriesAt? (h : entriesAt? (table.get? name) = some entries) {other : Path}
    (hother : other ≠ []) :
    (Value.map table).at? (.key name :: other) = (Value.map entries).at? other := by
  obtain ⟨step, more, rfl⟩ := List.exists_cons_of_ne_nil hother
  rw [Value.at?, Value.child?]
  rcases get?_of_entriesAt? h with ⟨hget, rfl⟩ | hget
  · rw [hget]
    cases step <;> rfl
  · rw [hget]
    rfl

theorem pointer?_insert_self (table : Table Value) (name : String) (v : Value)
    (names : List String) :
    (Value.map (table.insert name v)).pointer? (name :: names) = v.pointer? names := by
  rw [pointer?_map_cons, Table.get?_insert, if_pos rfl]
  rfl

theorem at?_insert_self (table : Table Value) (name : String) (v : Value) (other : Path) :
    (Value.map (table.insert name v)).at? (.key name :: other) = v.at? other := by
  rw [Value.at?, Value.child?, Table.get?_insert, if_pos rfl]
  rfl

theorem at?_insert_of_ne (table : Table Value) {name : String} (v : Value) {step : Step}
    (hstep : step ≠ .key name) (other : Path) :
    (Value.map (table.insert name v)).at? (step :: other) =
      (Value.map table).at? (step :: other) := by
  cases step with
  | index i => rfl
  | key first =>
    have hne : name ≠ first := fun h => hstep (h ▸ rfl)
    rw [Value.at?, Value.at?, Value.child?, Value.child?, Table.get?_insert, if_neg hne]

theorem keysAt_insert (table : Table Value) (name : String) (v : Value) :
    keysAt (table.insert name v) [] =
      if name ∈ keysAt table [] then keysAt table [] else keysAt table [] ++ [name] :=
  Table.keys_insert table name v

theorem MadeRoom.cons (hrest : rest ≠ [])
    (hentries : entriesAt? (table.get? name) = some entries)
    (h : MadeRoom entries rest entries' path) :
    MadeRoom table (name :: rest) (table.insert name (.map entries')) (.key name :: path) where
  fresh := by
    rw [at?_insert_self]
    exact h.fresh
  location := by
    rw [pointer?_of_entriesAt? hentries hrest, List.map_cons, List.cons_append, ← h.location]
  joined := by
    rw [pointer?_of_entriesAt? hentries hrest, pointer?_insert_self]
    exact h.joined
  onTheWay before next hbefore := by
    cases before with
    | nil =>
      obtain ⟨rfl, -⟩ := List.cons_prefix_cons.mp hbefore
      exact ⟨⟨_, rfl⟩, keysAt_insert table next _⟩
    | cons first before =>
      obtain ⟨rfl, hinside⟩ := List.cons_prefix_cons.mp hbefore
      have hkeys : keysAt (table.insert first (.map entries')) (first :: before) =
          keysAt entries' before := by
        rw [keysAt, pointer?_insert_self, keysAt]
      rw [hkeys, keysAt_of_entriesAt? hentries, pointer?_insert_self]
      exact h.onTheWay before next hinside
  elsewhere other hother hother' := by
    cases other with
    | nil => exact absurd List.nil_prefix hother
    | cons step other =>
      by_cases hstep : step = .key name
      · subst hstep
        rw [List.map_cons, List.cons_prefix_cons] at hother hother'
        have houtside : ¬ other <+: rest.map .key := fun h => hother ⟨rfl, h⟩
        have hne : other ≠ [] := by
          rintro rfl
          exact houtside List.nil_prefix
        rw [at?_insert_self, at?_of_entriesAt? hentries hne]
        exact h.elsewhere other houtside fun h => hother' ⟨rfl, h⟩
      · exact at?_insert_of_ne table _ hstep other

theorem madeRoom_insert {w : Value} {tail : Path}
    (hjoined : joined? (table.get? name) [] = some w) (hfresh : w.at? tail = some (.map []))
    (htail : tail = match table.get? name with
      | none => []
      | some (.list items) => [.index items.length]
      | some _ => [.index 1]) :
    MadeRoom table [name] (table.insert name w) (.key name :: tail) where
  fresh := by
    rw [at?_insert_self]
    exact hfresh
  location := by
    rw [pointer?_single, ← htail]
    rfl
  joined := by
    rw [pointer?_single, pointer?_single, Table.get?_insert, if_pos rfl, hjoined]
  onTheWay before next hbefore := by
    cases before with
    | nil =>
      obtain ⟨rfl, -⟩ := List.cons_prefix_cons.mp hbefore
      exact ⟨⟨_, rfl⟩, keysAt_insert table next w⟩
    | cons first before =>
      have hlength := hbefore.length_le
      simp at hlength
  elsewhere other hother hother' := by
    cases other with
    | nil => exact absurd List.nil_prefix hother
    | cons step other =>
      have hstep : step ≠ .key name := by
        rintro rfl
        exact hother' (List.cons_prefix_cons.mpr ⟨rfl, List.nil_prefix⟩)
      exact at?_insert_of_ne table w hstep other

theorem madeRoom_single (hplace : place table [name] = .ok (table', path)) :
    MadeRoom table [name] table' path := by
  rcases entry_cases (table.get? name) with h | ⟨entries, h⟩ | ⟨items, h⟩ | ⟨v, h, hv⟩
  · simp only [place, placeLast, h] at hplace
    cases hplace
    exact madeRoom_insert (by rw [h]; rfl) rfl (by rw [h])
  · simp only [place, placeLast, h] at hplace
    cases hplace
    exact madeRoom_insert (by rw [h]; rfl) rfl (by rw [h])
  · simp only [place, placeLast, h] at hplace
    cases hplace
    exact madeRoom_insert (by rw [h]; rfl) (by simp [Value.at?, Value.child?]) (by rw [h])
  · rw [place_single_value h hv] at hplace
    cases hplace

/-- A block that is placed gets an empty map at the end of its path, and nothing else changes but
what was there. By induction on the names, each of which is set in the table that it is in. -/
theorem madeRoom_of_place (hnames : names ≠ []) (hplace : place table names = .ok (table', path)) :
    MadeRoom table names table' path := by
  induction names generalizing table table' path with
  | nil => exact absurd rfl hnames
  | cons name rest ih =>
    cases rest with
    | nil => exact madeRoom_single hplace
    | cons next rest =>
      rcases hentries : entriesAt? (table.get? name) with _ | entries
      · have hroom := toOption_place_cons table name next rest
        rw [hplace, hentries] at hroom
        cases hroom
      · rw [place_cons hentries] at hplace
        rcases hinside : place entries (next :: rest) with obstruction | ⟨entries', inner⟩
        · rw [hinside] at hplace
          cases hplace
        · rw [hinside] at hplace
          cases hplace
          exact (ih (List.cons_ne_nil _ _) hinside).cons (List.cons_ne_nil _ _) hentries

end
end Reduction

open Reduction

/-- A block cannot be placed if and only if a list before its last name or a value that is neither a
list nor a map is in its way. The error then names the way up to the first such, and the table
is what it was, also for a walk that writes as it goes. Otherwise the block gets an empty map at its
names, or behind what is there, and all else stays as it is. -/
theorem placement_is_atomic (table : Table Value) {names : List String} (hnames : names ≠ [])
    (position : Option Position) (body : Build Unit) (s : State) :
    (∀ stopped obstacle, place table names = .error (obstacle, stopped) ↔
      Obstructs table names stopped obstacle) ∧
    (∀ stopped obstacle, Obstructs table names stopped obstacle →
      (∀ stopped' obstacle', Obstructs table names stopped' obstacle' → stopped <+: stopped') ∧
      walk table names = (.error (obstacle, stopped), table) ∧
      (Build.block names position body).outcome table s =
        ((.error (.error (obstacle.error stopped position)), table), s)) ∧
    ((∀ stopped obstacle, ¬ Obstructs table names stopped obstacle) →
      ∃ table' path, place table names = .ok (table', path) ∧
        walk table names = (.ok path, table') ∧ MadeRoom table names table' path) := by
  refine ⟨fun stopped obstacle => place_eq_error_iff hnames, fun stopped obstacle h => ?_,
    fun h => ?_⟩
  · have herror := (place_eq_error_iff hnames).mpr h
    refine ⟨fun stopped' obstacle' h' => ?_, ?_, ?_⟩
    · obtain ⟨rfl, -⟩ := h.unique hnames h'
      exact List.prefix_rfl
    · rw [walk_eq, herror]
    · obtain ⟨name, rest, rfl⟩ := List.exists_cons_of_ne_nil hnames
      rw [Build.outcome_block, herror]
  · rcases hplace : place table names with ⟨obstacle, stopped⟩ | ⟨table', path⟩
    · exact absurd ((place_eq_error_iff hnames).mp hplace) (h stopped obstacle)
    · refine ⟨table', path, rfl, ?_, madeRoom_of_place hnames hplace⟩
      rw [walk_eq, hplace]

def portTable : Table Value :=
  [("service", .map [("port", .null)])]

theorem placement_is_atomic_port :
    walk portTable ["service", "port", "check"] =
        (.error (.value, ["service", "port"]), portTable) ∧
      ∃ table', MadeRoom portTable ["service"] table' [.key "service", .index 1] ∧
        (Value.map table').pointer? ["service"] =
          some (.list [.map [("port", .null)], .map []]) := by
  have hvalue : Obstructs portTable ["service", "port", "check"] ["service", "port"] .value :=
    ⟨by decide, by decide, .null, rfl, rfl⟩
  have hfree : ∀ stopped obstacle, ¬ Obstructs portTable ["service"] stopped obstacle := by
    intro stopped obstacle h
    have herror := (place_eq_error_iff (List.cons_ne_nil _ _)).mpr h
    cases herror
  obtain ⟨-, hrefused, -⟩ := placement_is_atomic portTable
    (List.cons_ne_nil "service" ["port", "check"]) none (pure ()) {}
  obtain ⟨-, -, hplaced⟩ := placement_is_atomic portTable
    (List.cons_ne_nil "service" []) none (pure ()) {}
  obtain ⟨table', path, -, -, hroom⟩ := hplaced hfree
  have hpath : path = [.key "service", .index 1] := hroom.location
  subst hpath
  exact ⟨(hrefused _ _ hvalue).2.1, table', hroom, hroom.joined⟩

end HclEval
