import HclEval.Proofs.Json.Numbers
import HclEval.Proofs.Trees

/-!
The values that JSON has. Of the two zeros it has one, and a value with the one for the other is
the same value, with the keys of all its maps in the same order.
-/
namespace HclEval

namespace Value

/-- The values that JSON has, with at most so many levels of lists and maps. -/
inductive Portable : ℕ → Value → Prop
  | null {depth : ℕ} : Portable depth .null
  | bool {depth : ℕ} (b : Bool) : Portable depth (.bool b)
  | number {depth : ℕ} {x : Number} (hx : x.Short) : Portable depth (.number x)
  | string {depth : ℕ} (text : String) : Portable depth (.string text)
  | list {depth : ℕ} {items : List Value} (hitems : ∀ v ∈ items, Portable depth v) :
    Portable (depth + 1) (.list items)
  | map {depth : ℕ} {entries : Table Value} (hkeys : entries.keys.Nodup)
    (hentries : ∀ e ∈ entries, Portable depth e.2) : Portable (depth + 1) (.map entries)

mutual

/-- The value with one zero instead of two in all its numbers. -/
def oneZero : Value → Value
  | number x => number x.oneZero
  | list items => list (oneZeroItems items)
  | map entries => map (oneZeroEntries entries)
  | other => other
termination_by structural value => value

def oneZeroItems : List Value → List Value
  | [] => []
  | value :: rest => value.oneZero :: oneZeroItems rest

def oneZeroEntries : List (String × Value) → List (String × Value)
  | [] => []
  | (key, value) :: rest => (key, value.oneZero) :: oneZeroEntries rest

end

theorem oneZeroItems_eq_map (items : List Value) : oneZeroItems items = items.map oneZero := by
  induction items with
  | nil => rfl
  | cons v items ih => rw [oneZeroItems, ih, List.map_cons]

theorem get?_oneZeroEntries (entries : Table Value) (name : String) :
    Table.get? (oneZeroEntries entries) name = (entries.get? name).map oneZero := by
  induction entries with
  | nil => rfl
  | cons entry rest ih =>
    obtain ⟨key, v⟩ := entry
    simp only [oneZeroEntries, Table.get?]
    split
    · rfl
    · exact ih

theorem keys_oneZeroEntries (entries : Table Value) :
    Table.keys (oneZeroEntries entries) = Table.keys entries := by
  induction entries with
  | nil => rfl
  | cons entry rest ih => simpa [oneZeroEntries, Table.keys] using ih

theorem at?_oneZero (v : Value) (path : Path) : v.oneZero.at? path = (v.at? path).map oneZero := by
  induction path generalizing v with
  | nil => rfl
  | cons step rest ih =>
    have hchild : v.oneZero.child? step = (v.child? step).map oneZero := by
      cases v <;> cases step <;> try rfl
      case list.index items i => simp [oneZero, child?, oneZeroItems_eq_map]
      case map.key entries name => simp [oneZero, child?, get?_oneZeroEntries]
    rw [at?, at?, hchild]
    cases v.child? step with
    | none => rfl
    | some c => exact ih c

theorem sameItems_oneZero {items : List Value} (h : ∀ v ∈ items, v.same v.oneZero = true) :
    sameItems items (oneZeroItems items) = true := by
  induction items with
  | nil => rfl
  | cons v items ih =>
    simp only [List.forall_mem_cons] at h
    rw [oneZeroItems, sameItems, h.1, ih h.2, Bool.and_self]

theorem sameEntries_of_forall {entries other : Table Value}
    (h : ∀ e ∈ entries, ∃ w, other.get? e.1 = some w ∧ e.2.same w = true) :
    sameEntries entries other = true := by
  induction entries with
  | nil => rfl
  | cons entry rest ih =>
    simp only [List.forall_mem_cons] at h
    obtain ⟨⟨w, hw, hsame⟩, hrest⟩ := h
    rw [sameEntries, hw, ih hrest, Bool.and_true]
    exact hsame

theorem same_oneZero {depth : ℕ} {v : Value} (hv : v.Portable depth) :
    v.same v.oneZero = true := by
  induction hv with
  | number hx => exact hx.beq_oneZero
  | list hitems ih => exact sameItems_oneZero ih
  | map hkeys hentries ih =>
    rename_i entries
    have hentries : sameEntries entries (oneZeroEntries entries) = true := by
      refine sameEntries_of_forall fun e he => ⟨e.2.oneZero, ?_, ih e he⟩
      rw [get?_oneZeroEntries, Table.get?_of_mem hkeys he, Option.map_some]
    have hlength := congrArg List.length (keys_oneZeroEntries entries)
    simp only [Table.keys, List.length_map] at hlength
    simp [same, oneZero, hlength, hentries]
  | _ => simp [same, oneZero]

end Value
end HclEval
