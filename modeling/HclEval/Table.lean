/-!
Ordered tables with string keys. A new key goes to the end; a key that is already there keeps
its place and takes the new value.
-/
namespace HclEval

abbrev Table (α : Type) := List (String × α)

namespace Table

variable {α : Type}

def get? : Table α → String → Option α
  | [], _ => none
  | (k, v) :: rest, key => if k = key then some v else get? rest key

def contains (t : Table α) (key : String) : Bool := (t.get? key).isSome

def keys (t : Table α) : List String := t.map Prod.fst

def insert : Table α → String → α → Table α
  | [], key, value => [(key, value)]
  | (k, v) :: rest, key, value =>
    if k = key then (k, value) :: rest else (k, v) :: insert rest key value

def modify : Table α → String → (α → α) → Table α
  | [], _, _ => []
  | (k, v) :: rest, key, f => if k = key then (k, f v) :: rest else (k, v) :: modify rest key f

def merge (t u : Table α) : Table α := u.foldl (fun t (k, v) => insert t k v) t

def ofEntries (entries : List (String × α)) : Table α := merge [] entries

theorem get?_insert (t : Table α) (key key' : String) (value : α) :
    (insert t key value).get? key' = if key = key' then some value else t.get? key' := by
  induction t with
  | nil => simp [insert, get?]
  | cons entry rest ih =>
    obtain ⟨k, v⟩ := entry
    by_cases h : k = key
    · subst h
      by_cases h' : k = key' <;> simp [insert, get?, h']
    · by_cases h' : k = key'
      · subst h'
        simp [insert, get?, h, Ne.symm h]
      · simp [insert, get?, h, h', ih]

theorem keys_insert_of_contains {t : Table α} {key : String} (value : α)
    (h : t.contains key = true) : (insert t key value).keys = t.keys := by
  induction t with
  | nil => simp [contains, get?] at h
  | cons entry rest ih =>
    obtain ⟨k, v⟩ := entry
    simp only [insert]
    split
    · simp [keys]
    · simp_all [keys, contains, get?]

theorem keys_modify (t : Table α) (key : String) (f : α → α) : (modify t key f).keys = t.keys := by
  induction t with
  | nil => rfl
  | cons entry rest ih =>
    obtain ⟨k, v⟩ := entry
    simp only [modify]
    split
    · simp [keys]
    · simpa [keys] using ih

end Table
end HclEval
