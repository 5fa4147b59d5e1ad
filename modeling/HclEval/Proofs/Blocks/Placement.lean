import HclEval.Proofs.Meaning.Building

/-!
What a block makes of a table, once its body has been built. On the way to its last name it only
goes through maps, which it adds where there are none, and at its last name it joins what is there.
-/
namespace HclEval

open Reduction

theorem Document.put_insert (table : Table Value) (name : String) (rest : Path) (v w : Value) :
    Document.put (table.insert name v) (.key name :: rest) w =
      table.insert name (v.put rest w) :=
  Table.modify_insert table name v (Value.put · rest w)

theorem modify_length_append {α : Type} (items : List α) (a : α) (rest : List α) (f : α → α) :
    (items ++ a :: rest).modify items.length f = items ++ f a :: rest := by
  induction items with
  | nil => rfl
  | cons item _ ih => exact congrArg (item :: ·) ih

theorem pointer?_map_cons (table : Table Value) (name : String) (path : List String) :
    (Value.map table).pointer? (name :: path) = (table.get? name).bind (·.pointer? path) := rfl

namespace Reduction

def enter (table : Table Value) (names : List String) (inner : Table Value) :
    Option (Table Value) :=
  (place table names).toOption.map fun room => Document.put room.1 room.2 (.map inner)

def joined? (prior : Option Value) (inner : Table Value) : Option Value :=
  match prior with
  | none => some (.map inner)
  | some (.map entries) => some (.list [.map entries, .map inner])
  | some (.list items) => some (.list (items ++ [.map inner]))
  | some _ => none

def entriesAt? : Option Value → Option (Table Value)
  | none => some []
  | some (.map entries) => some entries
  | some _ => none

theorem enter_single (table : Table Value) (name : String) (inner : Table Value) :
    enter table [name] inner = (joined? (table.get? name) inner).map (table.insert name ·) := by
  unfold enter place placeLast joined?
  cases table.get? name with
  | none => simp [Except.toOption, Document.put_insert, Value.put]
  | some v =>
    cases v with
    | map prior => simp [Except.toOption, Document.put_insert, Value.put]
    | list items => simp [Except.toOption, Document.put_insert, Value.put, modify_length_append]
    | _ => rfl

theorem toOption_place_cons (table : Table Value) (name next : String) (rest : List String) :
    (place table (name :: next :: rest)).toOption =
      (entriesAt? (table.get? name)).bind fun entries =>
        (place entries (next :: rest)).toOption.map fun room =>
          (table.insert name (.map room.1), .key name :: room.2) := by
  have hbelow (entries : Table Value) : Except.bind (.ok entries) (place · (next :: rest)) =
      place entries (next :: rest) := rfl
  simp only [place]
  cases table.get? name with
  | none =>
    simp only [hbelow, entriesAt?, Option.bind_some]
    cases place [] (next :: rest) <;> rfl
  | some v =>
    cases v with
    | map entries =>
      simp only [hbelow, entriesAt?, Option.bind_some]
      cases place entries (next :: rest) <;> rfl
    | _ => rfl

theorem enter_cons (table : Table Value) (name next : String) (rest : List String)
    (inner : Table Value) :
    enter table (name :: next :: rest) inner =
      ((entriesAt? (table.get? name)).bind (enter · (next :: rest) inner)).map
        fun entries => table.insert name (.map entries) := by
  unfold enter
  rw [toOption_place_cons]
  cases entriesAt? (table.get? name) with
  | none => rfl
  | some entries =>
    simp only [Option.bind_some]
    cases hplace : place entries (next :: rest) with
    | error obstacle => rfl
    | ok room =>
      obtain ⟨v, path, -, hpath, -⟩ := place_entry hplace
      have hput : (Value.map room.1).put room.2 (.map inner) =
          .map (Document.put room.1 room.2 (.map inner)) := by
        rw [hpath, Document.map_put room.1 (List.cons_ne_nil _ _)]
      simp [Except.toOption, Document.put_insert, hput]

theorem outcome_block_of_enter {names : List String} (hnames : names ≠ [])
    {position : Option Position} {body : Build Unit} {table table' inner : Table Value}
    {s s' : State}
    (hbody : body.outcome [] s = ((.ok (), inner), s'))
    (henter : enter table names inner = some table') :
    (Build.block names position body).outcome table s = ((.ok (), table'), s') := by
  cases names with
  | nil => exact absurd rfl hnames
  | cons name rest =>
    rw [Build.outcome_block, hbody]
    unfold enter at henter
    cases hplace : place table (name :: rest) with
    | error obstacle =>
      rw [hplace] at henter
      cases henter
    | ok result =>
      rw [hplace] at henter
      cases henter
      rfl

end Reduction

def emptySetting : Setting := ⟨[], [], [], 64⟩

end HclEval
