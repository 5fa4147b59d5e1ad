import HclEval.Proofs.Blocks.Growth

/-!
What the bodies of a document say by themselves, and what it is to keep it: every body has a map of
its own, under the names of its blocks and with all its attributes. A body that is kept in a table
stays kept when an attribute of a new name or a block is added.
-/
namespace HclEval

open Reduction

/-- What a body says by itself: its attributes with their first values, and its blocks with their
names. -/
structure Body where
  attributes : Table Value
  blocks : List (List String × Body)

namespace Body

def append (body body' : Body) : Body :=
  ⟨body.attributes ++ body'.attributes, body.blocks ++ body'.blocks⟩

instance : Append Body := ⟨append⟩

def ofAttribute (name : String) (v : Value) : Body := ⟨[(name, v)], []⟩

def ofBlock (names : List String) (inner : Body) : Body := ⟨[], [(names, inner)]⟩

def at? : Body → List ℕ → Option Body
  | body, [] => some body
  | body, i :: rest => (body.blocks[i]?).bind fun block => block.2.at? rest

end Body

namespace Reduction

variable (reduce : Node → Eval Value)

mutual

def contents : List Node → Eval Body
  | [] => pure ⟨[], []⟩
  | node :: rest => return (← contentsOf node) ++ (← contents rest)
termination_by structural nodes => nodes

/-- An attribute with a block for a value is like a block of its name. -/
def contentsOf : Node → Eval Body
  | .block names children _ => return .ofBlock names (← contents children)
  | .named name [.block _ children _] _ => return .ofBlock [name] (← contents children)
  | .named name children position =>
    return .ofAttribute name (← structureChildren reduce (.named name children position) children)
  | _ => pure ⟨[], []⟩

end

end Reduction

namespace Body

variable {body body' inner : Body} {v w : Value} {name : String} {names : List String}

@[simp] theorem attributes_append :
    (body ++ body').attributes = body.attributes ++ body'.attributes := rfl

@[simp] theorem blocks_append : (body ++ body').blocks = body.blocks ++ body'.blocks := rfl

theorem append_assoc (body body' body'' : Body) :
    body ++ body' ++ body'' = body ++ (body' ++ body'') :=
  congrArg₂ mk (List.append_assoc ..) (List.append_assoc ..)

theorem empty_append (body : Body) : (⟨[], []⟩ : Body) ++ body = body := by
  cases body
  rfl

theorem append_empty (body : Body) : body ++ (⟨[], []⟩ : Body) = body := by
  obtain ⟨attributes, blocks⟩ := body
  exact congrArg₂ mk (List.append_nil attributes) (List.append_nil blocks)

theorem at?_append_ofAttribute (i : ℕ) (rest : List ℕ) :
    (body ++ ofAttribute name v).at? (i :: rest) = body.at? (i :: rest) := by
  simp [at?, ofAttribute]

theorem isSome_at?_append_ofAttribute (address : List ℕ) :
    ((body ++ ofAttribute name v).at? address).isSome = (body.at? address).isSome := by
  cases address with
  | nil => rfl
  | cons i rest => rw [at?_append_ofAttribute]

theorem at?_append_ofBlock (i : ℕ) (rest : List ℕ) : (body ++ ofBlock names inner).at? (i :: rest) =
    if i = body.blocks.length then inner.at? rest else body.at? (i :: rest) := by
  simp only [at?, blocks_append, ofBlock]
  split
  · rename_i hi
    subst hi
    simp
  · rename_i hi
    rcases Nat.lt_or_gt_of_ne hi with hlt | hgt
    · rw [List.getElem?_append_left hlt]
    · rw [List.getElem?_eq_none (by simp; omega), List.getElem?_eq_none (by omega)]

/-- A body is kept in a value if every body in it has a map of its own there, under the names of its
blocks and with its attributes. `site` tells where the maps are. -/
structure Kept (body : Body) (v : Value) (site : List ℕ → Path) : Prop where
  root : site [] = []
  own : ∀ address address', (body.at? address).isSome → (body.at? address').isSome →
    site address = site address' → address = address'
  nested : ∀ address b i names inner, body.at? address = some b →
    b.blocks[i]? = some (names, inner) →
    ∃ way, site (address ++ [i]) = site address ++ way ∧ keysOf way = names
  entries : ∀ address b, body.at? address = some b → ∃ entries,
    v.at? (site address) = some (.map entries) ∧
    ∀ e ∈ b.attributes, ∃ w, Table.get? entries e.1 = some w ∧ e.2.Grows w

/-- Blocks under the name of an attribute extend an object or a list. -/
def Clear (body : Body) : Prop :=
  ∀ address b, body.at? address = some b → ∀ e ∈ b.attributes, ∀ block ∈ b.blocks,
    block.1.head? = some e.1 → e.2.isCollection = true

namespace Kept

variable {site : List ℕ → Path} {table : Table Value}

theorem empty : Kept ⟨[], []⟩ (.map []) fun _ => [] where
  root := rfl
  own address address' h h' _ := by
    match address, address' with
    | [], [] => rfl
    | _ :: _, _ => cases h
    | _, _ :: _ => cases h'
  nested address b i names inner h hblock := by
    cases address with
    | nil =>
      cases h
      cases hblock
    | cons _ _ => cases h
  entries address b h := by
    cases address with
    | nil =>
      cases h
      exact ⟨[], rfl, by simp⟩
    | cons _ _ => cases h

theorem get?_ne_none (h : body.Kept (.map table) site) {block : List String × Body}
    (hblock : block ∈ body.blocks) (hname : block.1.head? = some name) :
    table.get? name ≠ none := by
  obtain ⟨names, inner⟩ := block
  obtain ⟨i, hi⟩ := List.getElem?_of_mem hblock
  obtain ⟨way, hsite, hkeys⟩ := h.nested [] body i names inner rfl hi
  obtain ⟨entries, hentries, -⟩ := h.entries [i] inner (by simp [at?, hi])
  rw [h.root, List.nil_append] at hsite
  rw [List.nil_append] at hsite
  rw [hsite] at hentries
  subst hkeys
  match way with
  | [] => cases hname
  | .index _ :: _ => cases hentries
  | .key first :: rest =>
    cases hname
    intro hnone
    rw [Value.at?_map_key, hnone] at hentries
    cases hentries

theorem moved (h : body.Kept v site) {move : Path → Path} {place : Path} (hmove : Relocation move)
    (hroot : move [] = []) (hmoved : Moved move place v w) : body.Kept w (move ∘ site) where
  root := by simp [h.root, hroot]
  own address address' ha ha' heq := h.own _ _ ha ha' (hmove.injective heq)
  nested address b i names inner hb hblock := by
    obtain ⟨way, hsite, hkeys⟩ := h.nested address b i names inner hb hblock
    obtain ⟨way', hway, hsame⟩ := hmove.exists_way (site address) way
    exact ⟨way', by simp [hsite, hway], hsame.trans hkeys⟩
  entries address b hb := by
    obtain ⟨entries, hentries, hattributes⟩ := h.entries address b hb
    obtain ⟨entries', hentries', hgrows⟩ := hmoved.maps _ _ hentries
    refine ⟨entries', hentries', fun e he => ?_⟩
    obtain ⟨u, hu, hgrown⟩ := hattributes e he
    obtain ⟨u', hu', hgrown'⟩ := hgrows.exists_get? hu
    exact ⟨u', hu', hgrown.trans hgrown'⟩

theorem append_ofAttribute (h : body.Kept (.map table) site) (hname : table.get? name = some v) :
    (body ++ ofAttribute name v).Kept (.map table) site where
  root := h.root
  own address address' ha ha' heq := by
    rw [isSome_at?_append_ofAttribute] at ha ha'
    exact h.own address address' ha ha' heq
  nested address b i names inner hb hblock := by
    cases address with
    | nil =>
      cases hb
      exact h.nested [] body i names inner rfl (by simpa [ofAttribute] using hblock)
    | cons j rest =>
      rw [at?_append_ofAttribute] at hb
      exact h.nested _ b i names inner hb hblock
  entries address b hb := by
    cases address with
    | nil =>
      cases hb
      obtain ⟨entries, hentries, hattributes⟩ := h.entries [] body rfl
      rw [h.root] at hentries ⊢
      cases hentries
      refine ⟨table, rfl, fun e he => ?_⟩
      rcases List.mem_append.mp he with he | he
      · exact hattributes e he
      · cases List.mem_singleton.mp he
        exact ⟨v, hname, .refl v⟩
    | cons j rest =>
      rw [at?_append_ofAttribute] at hb
      exact h.entries _ b hb

def siteWith (i : ℕ) (place : Path) (inside site : List ℕ → Path) : List ℕ → Path
  | [] => []
  | j :: rest => if j = i then place ++ inside rest else site (j :: rest)

section
variable {inside : List ℕ → Path} {place : Path}

theorem siteWith_cases (h : body.Kept v site) {address : List ℕ}
    (ha : ((body ++ ofBlock names inner).at? address).isSome) :
    (∃ rest, address = body.blocks.length :: rest ∧ (inner.at? rest).isSome ∧
      siteWith body.blocks.length place inside site address = place ++ inside rest) ∨
    ((body.at? address).isSome ∧
      siteWith body.blocks.length place inside site address = site address) := by
  cases address with
  | nil => exact .inr ⟨rfl, h.root.symm⟩
  | cons j rest =>
    rw [at?_append_ofBlock] at ha
    split at ha
    · rename_i hj
      subst hj
      exact .inl ⟨rest, rfl, ha, if_pos rfl⟩
    · rename_i hj
      exact .inr ⟨ha, if_neg hj⟩

theorem append_ofBlock (h : body.Kept v site) (hinner : inner.Kept w inside)
    (hkeys : keysOf place = names) (hplace : v.at? place = some w)
    (hfree : ∀ address, (body.at? address).isSome → ¬ place <+: site address) :
    (body ++ ofBlock names inner).Kept v (siteWith body.blocks.length place inside site) where
  root := rfl
  -- an old site that equals one in the new block would lie below `place`
  own address address' ha ha' heq := by
    rcases h.siteWith_cases ha with ⟨rest, rfl, hrest, hsite⟩ | ⟨hold, hsite⟩ <;>
      rcases h.siteWith_cases ha' with ⟨rest', rfl, hrest', hsite'⟩ | ⟨hold', hsite'⟩ <;>
      rw [hsite, hsite'] at heq
    · rw [hinner.own rest rest' hrest hrest' (List.append_cancel_left heq)]
    · exact absurd ⟨_, heq⟩ (hfree address' hold')
    · exact absurd ⟨_, heq.symm⟩ (hfree address hold)
    · exact h.own address address' hold hold' heq
  nested address b i names' inner' hb hblock := by
    cases address with
    | nil =>
      cases hb
      by_cases hi : i = body.blocks.length
      · subst hi
        simp only [blocks_append, ofBlock, List.getElem?_concat_length, Option.some.injEq,
          Prod.mk.injEq] at hblock
        refine ⟨place, ?_, hkeys.trans hblock.1⟩
        simp [siteWith, hinner.root]
      · have hlt : i < body.blocks.length := by
          have hlength := (List.getElem?_eq_some_iff.mp hblock).1
          simp only [blocks_append, ofBlock, List.length_append, List.length_singleton] at hlength
          omega
        rw [blocks_append, List.getElem?_append_left hlt] at hblock
        obtain ⟨way, hsite, hway⟩ := h.nested [] body i names' inner' rfl hblock
        rw [h.root] at hsite
        exact ⟨way, by simpa [siteWith, hi] using hsite, hway⟩
    | cons j rest =>
      rw [at?_append_ofBlock] at hb
      split at hb
      · rename_i hj
        obtain ⟨way, hsite, hway⟩ := hinner.nested rest b i names' inner' hb hblock
        exact ⟨way, by simp [siteWith, hj, hsite], hway⟩
      · rename_i hj
        obtain ⟨way, hsite, hway⟩ := h.nested (j :: rest) b i names' inner' hb hblock
        exact ⟨way, by simpa [siteWith, hj] using hsite, hway⟩
  entries address b hb := by
    cases address with
    | nil =>
      cases hb
      simpa [siteWith, ofBlock, h.root] using h.entries [] body rfl
    | cons j rest =>
      rw [at?_append_ofBlock] at hb
      simp only [siteWith]
      split at hb
      · rename_i hj
        obtain ⟨entries, hentries, hattributes⟩ := hinner.entries rest b hb
        rw [if_pos hj, Value.at?_append, hplace]
        exact ⟨entries, hentries, hattributes⟩
      · rename_i hj
        rw [if_neg hj]
        exact h.entries (j :: rest) b hb

end

theorem exists_attribute (h : body.Kept (.map table) site) (hname : table.get? name = none) :
    ∃ site', (body ++ ofAttribute name v).Kept (.map (table.insert name v)) site' := by
  have hmoved : Moved (atKey name id) [.key name] (.map table) (.map (table.insert name v)) :=
    .insert (by simp [hname])
  refine ⟨_, (h.moved (Relocation.id.atKey name) rfl hmoved).append_ofAttribute ?_⟩
  rw [Table.get?_insert, if_pos rfl]

theorem exists_block (h : body.Kept (.map table) site) (hnames : names ≠ [])
    {entries table' : Table Value} (henter : enter table names entries = some table')
    {inside : List ℕ → Path} (hinner : inner.Kept (.map entries) inside) :
    ∃ site', (body ++ ofBlock names inner).Kept (.map table') site' := by
  obtain ⟨move, place, hentry⟩ := exists_entry hnames henter
  refine ⟨_, (h.moved hentry.relocation hentry.root hentry.moved).append_ofBlock hinner hentry.keys
    hentry.at? fun address haddress => ?_⟩
  obtain ⟨b, hb⟩ := Option.isSome_iff_exists.mp haddress
  obtain ⟨entries, hentries, -⟩ := h.entries address b hb
  exact hentry.moved.free _ entries hentries

end Kept

namespace Clear

theorem empty : Clear ⟨[], []⟩ := by
  intro address b hb e he
  cases address with
  | nil =>
    cases hb
    cases he
  | cons _ _ => cases hb

theorem append_ofAttribute (h : body.Clear)
    (hname : ∀ block ∈ body.blocks, block.1.head? ≠ some name) :
    (body ++ ofAttribute name v).Clear := by
  intro address b hb e he block hblock hhead
  cases address with
  | nil =>
    cases hb
    rw [blocks_append, ofAttribute, List.append_nil] at hblock
    rcases List.mem_append.mp he with he | he
    · exact h [] body rfl e he block hblock hhead
    · cases List.mem_singleton.mp he
      exact absurd hhead (hname block hblock)
  | cons i rest =>
    rw [at?_append_ofAttribute] at hb
    exact h (i :: rest) b hb e he block hblock hhead

theorem append_ofBlock (h : body.Clear) (hinner : inner.Clear)
    (hname : ∀ e ∈ body.attributes, names.head? = some e.1 → e.2.isCollection = true) :
    (body ++ ofBlock names inner).Clear := by
  intro address b hb e he block hblock hhead
  cases address with
  | nil =>
    cases hb
    rw [attributes_append, ofBlock, List.append_nil] at he
    rcases List.mem_append.mp hblock with hblock | hblock
    · exact h [] body rfl e he block hblock hhead
    · cases List.mem_singleton.mp hblock
      exact hname e he hhead
  | cons i rest =>
    rw [at?_append_ofBlock] at hb
    split at hb
    · exact hinner rest b hb e he block hblock hhead
    · exact h (i :: rest) b hb e he block hblock hhead

end Clear
end Body

end HclEval
