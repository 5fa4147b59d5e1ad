import HclEval.Proofs.Aliases.Graph
import HclEval.Proofs.Coupling.Evaluation
import HclEval.Proofs.Meaning.Building
import Mathlib.Data.List.Flatten

/-!
Documents made of `locals` blocks. A single block is a map, several are a list of maps; either way
each name has one place, where references find it and where its value is put.
-/
namespace HclEval

open Reduction

def allDeclarations (blocks : List LocalsBlock) : List Declaration :=
  blocks.flatMap LocalsBlock.declarations

def LocalsBlock.entries (f : String → Value) (block : LocalsBlock) : Table Value :=
  block.declarations.map fun d => (d.name, f d.name)

def documentOf (f : String → Value) : List LocalsBlock → Document
  | [] => []
  | [block] => [("locals", .map (block.entries f))]
  | blocks => [("locals", .list (blocks.map fun block => .map (block.entries f)))]

def declaredPath (blocks : List LocalsBlock) (i : ℕ) (name : String) : Path :=
  if blocks.length = 1 then [.key "locals", .key name] else [.key "locals", .index i, .key name]

theorem documentOf_several (f : String → Value) {blocks : List LocalsBlock}
    (h : 2 ≤ blocks.length) :
    documentOf f blocks = [("locals", .list (blocks.map fun block => .map (block.entries f)))] := by
  match blocks with
  | [] | [_] => simp at h
  | _ :: _ :: _ => rfl

namespace LocalsBlock

variable {f : String → Value} {block : LocalsBlock}

theorem get?_entries {d : Declaration} (hd : d ∈ block.declarations) :
    Table.get? (block.entries f) d.name = some (f d.name) := by
  unfold entries
  generalize block.declarations = declarations at hd
  induction declarations with
  | nil => cases hd
  | cons d' rest ih =>
    by_cases hname : d'.name = d.name
    · simp [Table.get?, hname]
    · have hrest : d ∈ rest := (List.mem_cons.1 hd).resolve_left fun heq => hname (by rw [heq])
      simpa [Table.get?, hname] using ih hrest

theorem contains_entries {name : String} :
    Table.contains (block.entries f) name = true ↔ Declared block.declarations name := by
  rw [Table.contains_iff_mem_keys]
  simp [Table.keys, entries, Declared]

theorem modify_entries (hdistinct : (block.declarations.map Declaration.name).Nodup) (name : String)
    (v : Value) : Table.modify (block.entries f) name (fun _ => v) =
      block.entries (Function.update f name v) := by
  unfold entries
  generalize block.declarations = declarations at hdistinct
  induction declarations with
  | nil => rfl
  | cons d rest ih =>
    obtain ⟨hd, hrest⟩ := List.nodup_cons.1 hdistinct
    simp only [List.map_cons, Table.modify]
    by_cases hname : d.name = name
    · subst hname
      simp only [if_true, Function.update_self, List.cons.injEq, true_and]
      refine List.map_congr_left fun d' hd' => ?_
      have hne : d'.name ≠ d.name := fun heq => hd (heq ▸ List.mem_map_of_mem hd')
      rw [Function.update_of_ne hne]
    · simp only [if_neg hname, Function.update_of_ne hname, List.cons.injEq, true_and]
      exact ih hrest

theorem entries_update_of_notMem {name : String} (h : ¬ Declared block.declarations name)
    (v : Value) : block.entries (Function.update f name v) = block.entries f := by
  refine List.map_congr_left fun d hd => ?_
  rw [Function.update_of_ne fun heq => h ⟨d, hd, heq⟩]

end LocalsBlock

section
variable {blocks : List LocalsBlock}
  (hdistinct : ((allDeclarations blocks).map Declaration.name).Nodup)
include hdistinct

theorem nodup_of_mem {block : LocalsBlock} (h : block ∈ blocks) :
    (block.declarations.map Declaration.name).Nodup := by
  rw [allDeclarations, List.map_flatMap, List.nodup_flatMap] at hdistinct
  exact hdistinct.1 block h

theorem index_eq_of_declared {i j : ℕ} {b b' : LocalsBlock} (hb : blocks[i]? = some b)
    (hb' : blocks[j]? = some b') {name : String} (h : Declared b.declarations name)
    (h' : Declared b'.declarations name) : i = j := by
  rw [allDeclarations, List.map_flatMap, List.nodup_flatMap, List.pairwise_iff_getElem]
    at hdistinct
  obtain ⟨hi, rfl⟩ := List.getElem?_eq_some_iff.1 hb
  obtain ⟨hj, rfl⟩ := List.getElem?_eq_some_iff.1 hb'
  have hmem : name ∈ blocks[i].declarations.map Declaration.name := by
    simpa [Declared] using h
  have hmem' : name ∈ blocks[j].declarations.map Declaration.name := by
    simpa [Declared] using h'
  rcases Nat.lt_trichotomy i j with hlt | heq | hlt
  · exact absurd hmem' (hdistinct.2 i j hi hj hlt hmem)
  · exact heq
  · exact absurd hmem (hdistinct.2 j i hj hi hlt hmem')

omit hdistinct in
theorem find?_reverse_range_eq_some {n i : ℕ} {p : ℕ → Bool} (hi : i < n) (hp : p i = true)
    (hunique : ∀ j, p j = true → j = i) : (List.range n).reverse.find? p = some i := by
  cases hfind : (List.range n).reverse.find? p with
  | none => exact absurd hp (List.find?_eq_none.1 hfind i (by simpa using hi))
  | some j => exact congrArg some (hunique j (List.find?_some hfind))

theorem lastDeclaring?_of_declared (f : String → Value) {i : ℕ} {block : LocalsBlock}
    (hblock : blocks[i]? = some block) {name : String} (h : Declared block.declarations name) :
    Document.lastDeclaring? name (blocks.map fun block => .map (block.entries f)) = some i := by
  have hi : i < blocks.length := (List.getElem?_eq_some_iff.1 hblock).1
  unfold Document.lastDeclaring?
  rw [List.length_map]
  refine find?_reverse_range_eq_some hi ?_ fun j hj => ?_
  · simp [List.getElem?_map, hblock, LocalsBlock.contains_entries.2 h]
  · rw [List.getElem?_map] at hj
    cases hblock' : blocks[j]? with
    | none => simp [hblock'] at hj
    | some block' =>
      simp only [hblock', Option.map_some] at hj
      exact index_eq_of_declared hdistinct hblock' hblock (LocalsBlock.contains_entries.1 hj) h

theorem localPath?_of_declared (f : String → Value) {i : ℕ} {block : LocalsBlock}
    (hblock : blocks[i]? = some block) {name : String} (h : Declared block.declarations name) :
    (documentOf f blocks).localPath? name = some (declaredPath blocks i name) := by
  rcases blocks with _ | ⟨first, _ | ⟨second, rest⟩⟩
  · simp at hblock
  · obtain rfl : first = block := by
      cases i with
      | zero => simpa using hblock
      | succ i => simp at hblock
    simp [documentOf, Document.localPath?, Table.get?, declaredPath,
      LocalsBlock.contains_entries.2 h]
  · have hlast := lastDeclaring?_of_declared hdistinct f hblock h
    have hlength : (first :: second :: rest).length ≠ 1 := by simp
    rw [documentOf_several f (by simp), declaredPath, if_neg hlength]
    simp only [Document.localPath?, Table.get?, if_true]
    rw [hlast]
    rfl

omit hdistinct in
theorem localPath?_of_undeclared (f : String → Value) {name : String}
    (h : ¬ Declared (allDeclarations blocks) name) :
    (documentOf f blocks).localPath? name = none := by
  have hblock {block : LocalsBlock} (hmem : block ∈ blocks) :
      Table.contains (block.entries f) name = false := by
    rw [Bool.eq_false_iff]
    intro hcontains
    obtain ⟨d, hd, hname⟩ := LocalsBlock.contains_entries.1 hcontains
    exact h ⟨d, List.mem_flatMap.2 ⟨block, hmem, hd⟩, hname⟩
  rcases blocks with _ | ⟨first, _ | ⟨second, rest⟩⟩
  · rfl
  · simp [documentOf, Document.localPath?, Table.get?, hblock (List.mem_singleton_self _)]
  · rw [documentOf_several f (by simp)]
    simp only [Document.localPath?, Table.get?, if_true, Option.map_eq_none_iff,
      Document.lastDeclaring?, List.find?_eq_none]
    intro i _
    rw [List.getElem?_map]
    cases hget : (first :: second :: rest)[i]? with
    | none => simp
    | some block => simp [hblock (List.mem_of_getElem? hget)]

omit hdistinct in
theorem slot?_declaredPath (f : String → Value) {i : ℕ} {block : LocalsBlock}
    (hblock : blocks[i]? = some block) {d : Declaration} (hd : d ∈ block.declarations) :
    (documentOf f blocks).slot? (declaredPath blocks i d.name) = some (f d.name) := by
  match blocks, hblock with
  | [], hblock => simp at hblock
  | [only], hblock =>
    obtain rfl : only = block := by
      cases i with
      | zero => simpa using hblock
      | succ i => simp at hblock
    simp [documentOf, declaredPath, Document.slot?, Value.at?, Value.child?, Table.get?,
      LocalsBlock.get?_entries hd]
  | first :: second :: rest, hblock =>
    have hlength : (first :: second :: rest).length ≠ 1 := by simp
    have hitem : ((first :: second :: rest).map fun block => Value.map (block.entries f))[i]? =
        some (.map (block.entries f)) := by rw [List.getElem?_map, hblock, Option.map_some]
    rw [documentOf_several f (by simp), declaredPath, if_neg hlength]
    simp only [Document.slot?, Value.at?, Value.child?, Table.get?, if_true, Option.bind_some,
      hitem, LocalsBlock.get?_entries hd]

theorem put_declaredPath (f : String → Value) {i : ℕ} {block : LocalsBlock}
    (hblock : blocks[i]? = some block) {d : Declaration} (hd : d ∈ block.declarations) (v : Value) :
    (documentOf f blocks).put (declaredPath blocks i d.name) v =
      documentOf (Function.update f d.name v) blocks := by
  have hput (entries : Table Value) :
      (Value.map entries).put [.key d.name] v = .map (Table.modify entries d.name fun _ => v) := by
    simp [Value.put]
  have hmodify := LocalsBlock.modify_entries (f := f)
    (nodup_of_mem hdistinct (List.mem_of_getElem? hblock)) d.name v
  rcases blocks with _ | ⟨first, _ | ⟨second, rest⟩⟩
  · simp at hblock
  · obtain rfl : first = block := by
      cases i with
      | zero => simpa using hblock
      | succ i => simp at hblock
    have hlocals : (documentOf f [first]).put (declaredPath [first] i d.name) v =
        [("locals", (Value.map (first.entries f)).put [.key d.name] v)] := rfl
    rw [hlocals, hput, hmodify]
    rfl
  · have hlength : (first :: second :: rest).length ≠ 1 := by simp
    rw [documentOf_several f (by simp), documentOf_several _ (by simp), declaredPath,
      if_neg hlength]
    have hlocals (items : List Value) :
        Document.put [("locals", .list items)] [.key "locals", .index i, .key d.name] v =
          [("locals", .list (items.modify i fun item => item.put [.key d.name] v))] := rfl
    rw [hlocals]
    have hitems : ((first :: second :: rest).map fun block => Value.map (block.entries f)).modify i
        (fun item => item.put [.key d.name] v) = (first :: second :: rest).map fun block =>
          Value.map (block.entries (Function.update f d.name v)) := by
      refine List.ext_getElem? fun j => ?_
      rw [List.getElem?_modify, List.getElem?_map, List.getElem?_map]
      cases hget : (first :: second :: rest)[j]? with
      | none => simp
      | some other =>
        simp only [Option.map_some, Option.map_eq_map]
        by_cases hij : i = j
        · subst hij
          obtain rfl : block = other := by simpa [hblock] using hget
          rw [if_pos rfl, hput, hmodify]
        · rw [if_neg hij, LocalsBlock.entries_update_of_notMem fun hdeclared =>
            hij (index_eq_of_declared hdistinct hblock hget ⟨d, hd, rfl⟩ hdeclared)]
    rw [hitems]

end

/-! The first pass. -/

def Declaration.first (d : Declaration) : Value :=
  match d.binding with
  | .literal kind raw => (literalValue kind raw).toOption.getD .null
  | .reference _ => .node d.node

def firstValues (declarations : List Declaration) (name : String) : Value :=
  ((declarations.find? (·.name = name)).map Declaration.first).getD .null

theorem firstValues_eq {declarations : List Declaration}
    (hdistinct : (declarations.map Declaration.name).Nodup) {d : Declaration}
    (hd : d ∈ declarations) : firstValues declarations d.name = d.first := by
  unfold firstValues
  cases hfind : declarations.find? (·.name = d.name) with
  | none => simpa using List.find?_eq_none.1 hfind d hd
  | some d' =>
    have hname := List.find?_some hfind
    simp only [decide_eq_true_eq] at hname
    rw [eq_of_name_eq hdistinct (List.mem_of_find?_eq_some hfind) hd hname]
    rfl

section
variable (reduce : Node → Eval Value) {f : String → Value} (s : State)

theorem outcome_structureNode_declaration {d : Declaration} (h : d.binding.WellFormed)
    (table : Table Value) :
    (structureNode reduce d.node).outcome table s = ((.ok (), table.insert d.name d.first), s) := by
  have hfirst : (structureChildren reduce d.node [d.binding.node]).outcome s =
      (.ok d.first, s) := by
    unfold Declaration.first
    cases hbinding : d.binding with
    | literal kind raw =>
      rw [hbinding] at h
      obtain ⟨v, hv⟩ := exists_literalValue h
      simp only [Binding.node, structureChildren, structureOnly, hv]
      rfl
    | reference name => rfl
  rw [Declaration.node, outcome_named]
  rw [Declaration.node] at hfirst
  rw [hfirst]

theorem outcome_structureEach_declarations {declarations : List Declaration} {table : Table Value}
    (hdistinct : (Table.keys table ++ declarations.map Declaration.name).Nodup)
    (hwritten : ∀ d ∈ declarations, d.binding.WellFormed)
    (hf : ∀ d ∈ declarations, f d.name = d.first) :
    (structureEach reduce (declarations.map Declaration.node)).outcome table s =
      ((.ok (), table ++ declarations.map fun d => (d.name, f d.name)), s) := by
  induction declarations generalizing table with
  | nil =>
    rw [List.map_nil, List.map_nil, List.append_nil]
    rfl
  | cons d rest ih =>
    rw [List.forall_mem_cons] at hwritten hf
    have hfresh : d.name ∉ Table.keys table := fun hmem =>
      (List.disjoint_of_nodup_append hdistinct) hmem (List.mem_cons_self ..)
    have hrest :
        (Table.keys (table ++ [(d.name, d.first)]) ++ rest.map Declaration.name).Nodup := by
      simpa [Table.keys] using hdistinct
    rw [List.map_cons, structureEach, Build.outcome_bind,
      outcome_structureNode_declaration reduce s hwritten.1, Table.insert_of_notMem hfresh]
    change (structureEach reduce (rest.map Declaration.node)).outcome
      (table ++ [(d.name, d.first)]) s = _
    rw [ih hrest hwritten.2 hf.2, List.append_assoc, List.map_cons, hf.1]
    rfl

theorem exists_place_documentOf (f : String → Value) (done : List LocalsBlock)
    (block : LocalsBlock) :
    ∃ table path, place (documentOf f done) ["locals"] = .ok (table, path) ∧
      Document.put table path (.map (block.entries f)) = documentOf f (done ++ [block]) := by
  match done with
  | [] => exact ⟨_, _, rfl, rfl⟩
  | [_] => exact ⟨_, _, rfl, rfl⟩
  | first :: second :: rest =>
    have hseveral : documentOf f (first :: second :: rest ++ [block]) =
        [("locals", .list ((first :: second :: rest).map (fun block =>
          Value.map (block.entries f)) ++ [.map (block.entries f)]))] := by
      rw [documentOf_several f (by simp), List.map_append]
      rfl
    rw [documentOf_several f (by simp), hseveral]
    generalize (first :: second :: rest).map (fun block => Value.map (block.entries f)) = items
    have hmodify : (items ++ [Value.map []]).modify items.length
        (fun _ => .map (block.entries f)) = items ++ [.map (block.entries f)] := by
      simp [List.modify_eq_take_drop]
    refine ⟨[("locals", .list (items ++ [.map []]))], [.key "locals", .index items.length],
      by simp [place, placeLast, Table.get?, Table.insert], ?_⟩
    rw [← hmodify]
    rfl

theorem outcome_structureNode_block (done : List LocalsBlock) {block : LocalsBlock}
    (hdistinct : (block.declarations.map Declaration.name).Nodup)
    (hwritten : ∀ d ∈ block.declarations, d.binding.WellFormed)
    (hf : ∀ d ∈ block.declarations, f d.name = d.first) :
    (structureNode reduce block.node).outcome (documentOf f done) s =
      ((.ok (), documentOf f (done ++ [block])), s) := by
  have hbody : (structureEach reduce (block.declarations.map Declaration.node)).outcome [] s =
      ((.ok (), block.entries f), s) :=
    outcome_structureEach_declarations reduce s hdistinct hwritten hf
  obtain ⟨table, path, hplace, hput⟩ := exists_place_documentOf f done block
  rw [LocalsBlock.node, structureNode, Build.outcome_block, hplace, hbody]
  exact congrArg (fun document => ((Except.ok (), document), s)) hput

theorem outcome_structureEach_blocks (done : List LocalsBlock) {blocks : List LocalsBlock}
    (hdistinct : ((allDeclarations blocks).map Declaration.name).Nodup)
    (hwritten : ∀ d ∈ allDeclarations blocks, d.binding.WellFormed)
    (hf : ∀ d ∈ allDeclarations blocks, f d.name = d.first) :
    (structureEach reduce (blocks.map LocalsBlock.node)).outcome (documentOf f done) s =
      ((.ok (), documentOf f (done ++ blocks)), s) := by
  induction blocks generalizing done with
  | nil =>
    rw [List.append_nil]
    rfl
  | cons block rest ih =>
    simp only [allDeclarations, List.flatMap_cons, List.forall_mem_append, List.map_append]
      at hdistinct hwritten hf
    rw [List.map_cons, structureEach, Build.outcome_bind,
      outcome_structureNode_block reduce s done hdistinct.of_append_left hwritten.1 hf.1]
    change (structureEach reduce (rest.map LocalsBlock.node)).outcome
      (documentOf f (done ++ [block])) s = _
    rw [ih (done ++ [block]) hdistinct.of_append_right hwritten.2 hf.2, List.append_assoc]
    rfl

end
end HclEval
