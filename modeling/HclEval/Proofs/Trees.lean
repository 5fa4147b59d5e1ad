import HclEval.Proofs.Tables
import HclEval.Reduction.Path
import Mathlib.Data.List.Forall2

/-!
The trees that nodes and values hold. A property of nodes may be asked of a whole tree, and of all
trees in a value; both are closed under whatever takes a tree or a value apart.
-/
namespace HclEval

namespace Node

def parts : Node → List Node
  | block _ children _ | named _ children _ | map children | array children
  | reference children | group children | interpolation children | call _ children _ => children
  | keyed name children _ => name :: children
  | literal .. | type _ | operator _ | segment _ => []
  | comprehension _ _ collection key value condition _ =>
    collection :: value :: (key.toList ++ condition.toList)

def Hereditary (p : Node → Prop) : Prop := ∀ node, p node → ∀ part ∈ node.parts, p part

inductive Every (p : Node → Prop) : Node → Prop
  | intro (node : Node) : p node → (∀ part ∈ node.parts, Every p part) → Every p node

theorem Every.self {p : Node → Prop} {node : Node} (h : node.Every p) : p node := by
  cases h
  assumption

theorem hereditary_every (p : Node → Prop) : Hereditary (Every p) := by
  intro node h part hpart
  cases h with
  | intro _ _ below => exact below part hpart

theorem hereditary_true : Hereditary fun _ => True := fun _ _ _ _ => trivial

theorem hereditary_not_hasReferences : Hereditary fun node => node.hasReferences = false := by
  intro node h part hpart
  cases node <;> simp [parts, hasReferences, anyReferences_eq] at h hpart ⊢
  case keyed name children position =>
    rcases hpart with rfl | hpart
    · exact h.1
    · simpa using h.2 part hpart
  all_goals simpa using h part hpart

end Node

namespace Value

@[elab_as_elim]
theorem induction {motive : Value → Prop} (null : motive .null) (bool : ∀ b, motive (.bool b))
    (number : ∀ x, motive (.number x)) (string : ∀ text, motive (.string text))
    (list : ∀ items, (∀ v ∈ items, motive v) → motive (.list items))
    (map : ∀ entries : List (String × Value), (∀ e ∈ entries, motive e.2) → motive (.map entries))
    (type : ∀ marker, motive (.type marker)) (node : ∀ tree, motive (.node tree)) :
    ∀ v, motive v
  | .null => null
  | .bool b => bool b
  | .number x => number x
  | .string text => string text
  | .list items => list items fun v _ =>
      induction null bool number string list map type node v
  | .map entries => map entries fun e _ =>
      induction null bool number string list map type node e.2
  | .type marker => type marker
  | .node tree => node tree
termination_by v => sizeOf v
decreasing_by
  · have := List.sizeOf_lt_of_mem ‹_›
    simp only [Value.list.sizeOf_spec]
    omega
  · have := List.sizeOf_lt_of_mem ‹_›
    obtain ⟨key, value⟩ := e
    simp only [Value.map.sizeOf_spec, Prod.mk.sizeOf_spec] at this ⊢
    omega

mutual

def Every (p : Node → Prop) : Value → Prop
  | list items => everyItem p items
  | map entries => everyEntry p entries
  | node tree => p tree
  | _ => True
termination_by structural value => value

def everyItem (p : Node → Prop) : List Value → Prop
  | [] => True
  | value :: rest => value.Every p ∧ everyItem p rest

def everyEntry (p : Node → Prop) : List (String × Value) → Prop
  | [] => True
  | (_, value) :: rest => value.Every p ∧ everyEntry p rest

end

section
variable {p q : Node → Prop}

@[simp] theorem every_null : null.Every p := trivial
@[simp] theorem every_bool (b : Bool) : (bool b).Every p := trivial
@[simp] theorem every_number (x : Number) : (number x).Every p := trivial
@[simp] theorem every_string (text : String) : (string text).Every p := trivial
@[simp] theorem every_type (marker : TypeMarker) : (type marker).Every p := trivial
@[simp] theorem every_node (tree : Node) : (node tree).Every p ↔ p tree := Iff.rfl

@[simp] theorem every_list (items : List Value) :
    (list items).Every p ↔ ∀ v ∈ items, v.Every p := by
  rw [Every]
  induction items with
  | nil => simp [everyItem]
  | cons v rest ih => simp [everyItem, ih]

@[simp] theorem every_map (entries : List (String × Value)) :
    (map entries).Every p ↔ ∀ e ∈ entries, e.2.Every p := by
  rw [Every]
  induction entries with
  | nil => simp [everyEntry]
  | cons e rest ih => simp [everyEntry, ih]

theorem Every.mono (h : ∀ tree, p tree → q tree) {v : Value} (hv : v.Every p) : v.Every q := by
  induction v using Value.induction with
  | list items ih =>
    rw [every_list] at hv ⊢
    exact fun v hmem => ih v hmem (hv v hmem)
  | map entries ih =>
    rw [every_map] at hv ⊢
    exact fun e hmem => ih e hmem (hv e hmem)
  | node tree =>
    rw [every_node] at hv ⊢
    exact h tree hv
  | _ => simp

theorem every_true (v : Value) : v.Every fun _ => True := by
  induction v using Value.induction with
  | list items ih => simpa using ih
  | map entries ih => exact (every_map entries).2 ih
  | _ => simp

end

end Value

namespace Value

variable {p : Node → Prop}

theorem Every.child? {v w : Value} {step : Step} (hv : v.Every p) (h : v.child? step = some w) :
    w.Every p := by
  cases v <;> cases step <;> simp only [Value.child?, reduceCtorEq] at h
  case list.index items i => exact (every_list items).1 hv w (List.mem_of_getElem? h)
  case map.key entries name => exact (every_map entries).1 hv _ (Table.mem_of_get? h)

theorem Every.at? {v w : Value} {path : Path} (hv : v.Every p) (h : v.at? path = some w) :
    w.Every p := by
  induction path generalizing v with
  | nil =>
    obtain rfl : v = w := by simpa [Value.at?] using h
    exact hv
  | cons step rest ih =>
    obtain ⟨u, hu, h⟩ := Option.bind_eq_some_iff.1 h
    exact ih (hv.child? hu) h

theorem Every.select? {v w : Value} {accessor : Accessor} (hv : v.Every p)
    (h : v.select? accessor = some w) : w.Every p := by
  cases v <;> cases accessor <;>
    simp only [Value.select?, reduceCtorEq, bind, Option.bind_eq_some_iff, Option.pure_def,
      Option.some.injEq] at h
  case list.index items x =>
    obtain ⟨i, -, h⟩ := h
    exact (every_list items).1 hv w (List.mem_of_getElem? h)
  case map.name entries name => exact (every_map entries).1 hv _ (Table.mem_of_get? h)
  case map.index entries x =>
    obtain ⟨i, -, e, h, rfl⟩ := h
    exact (every_map entries).1 hv e (List.mem_of_getElem? h)

theorem every_insert {t : Table Value} {key : String} {value : Value}
    (ht : (map t).Every p) (hv : value.Every p) : (map (Table.insert t key value)).Every p := by
  rw [every_map] at ht ⊢
  intro e he
  rcases Table.mem_insert he with rfl | he
  · exact hv
  · exact ht e he

theorem every_merge {t u : Table Value} (ht : (map t).Every p) (hu : (map u).Every p) :
    (map (Table.merge t u)).Every p := by
  rw [every_map] at ht hu ⊢
  intro e he
  rcases Table.mem_merge he with he | he
  · exact ht e he
  · exact hu e he

theorem every_modify {t : Table Value} {key : String} {f : Value → Value}
    (ht : (map t).Every p) (hf : ∀ v, (key, v) ∈ t → (f v).Every p) :
    (map (Table.modify t key f)).Every p := by
  rw [every_map] at ht ⊢
  induction t with
  | nil => simp [Table.modify]
  | cons e rest ih =>
    obtain ⟨k, v⟩ := e
    simp only [Table.modify]
    split
    · rename_i hk
      subst hk
      simp only [List.forall_mem_cons] at ht ⊢
      exact ⟨hf v (List.mem_cons_self ..), ht.2⟩
    · simp only [List.forall_mem_cons] at ht ⊢
      exact ⟨ht.1, ih ht.2 fun v hv => hf v (List.mem_cons_of_mem _ hv)⟩

theorem Every.put {v w : Value} {path : Path} (hv : v.Every p) (hw : w.Every p) :
    (v.put path w).Every p := by
  induction path generalizing v with
  | nil => simpa [Value.put] using hw
  | cons step rest ih =>
    cases v <;> cases step <;> simp only [Value.put] <;> try exact hv
    case list.index items i =>
      rw [every_list] at hv ⊢
      intro u hu
      obtain ⟨j, hj, rfl⟩ := List.mem_iff_getElem.1 hu
      rw [List.getElem_modify]
      split
      · exact ih (hv _ (List.getElem_mem _))
      · exact hv _ (List.getElem_mem _)
    case map.key entries name =>
      exact every_modify hv fun u hu => ih ((every_map entries).1 hv _ hu)

end Value
end HclEval
