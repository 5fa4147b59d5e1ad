import HclEval.Proofs.Blocks.Placement
import HclEval.Proofs.Indexing

/-!
Where locals are declared. All `locals` blocks laid over each other hold of every name what is at
the place of its last declaration; so `local`, taken as a whole, and a name selected from it lead to
the same declaration, and what is evaluated in place is what the whole holds from then on.
-/
namespace HclEval

open Reduction

namespace Document

variable {document : Document} {name : String}

theorem nodup_keys_of_mem_localsBlocks (h : (Value.map document).Distinct) {block : Table Value}
    (hblock : block ∈ document.localsBlocks) : block.keys.Nodup := by
  have hlocals {v : Value} (hv : Table.get? document "locals" = some v) : v.Distinct := by
    have hchild : (Value.map document).child? (.key "locals") = some v := hv
    exact h.child? hchild
  unfold localsBlocks at hblock
  split at hblock
  · rename_i entries hentries
    obtain rfl := List.mem_singleton.mp hblock
    cases hlocals hentries with
    | map hkeys => exact hkeys
  · rename_i blocks hblocks
    obtain ⟨v, hv, hmap⟩ := List.mem_filterMap.mp hblock
    cases hlocals hblocks with
    | list hitems =>
      have hdistinct := hitems v hv
      cases v <;> cases hmap
      cases hdistinct with
      | map hkeys => exact hkeys
  · cases hblock

theorem get?_locals (h : (Value.map document).Distinct) (name : String) :
    document.locals.get? name = document.localsBlocks.reverse.findSome? (Table.get? · name) := by
  unfold locals localsBlocks
  cases hlocals : Table.get? document "locals" with
  | none => rfl
  | some v =>
    cases v
    case map entries => simp
    case list blocks =>
      have hdistinct : ∀ block ∈ blocks.filterMap Value.map?, block.keys.Nodup :=
        fun block hblock => nodup_keys_of_mem_localsBlocks h (by rwa [localsBlocks, hlocals])
      rw [← Table.get?_ofEntries_flatten hdistinct, Table.ofEntries, Table.merge,
        List.foldl_flatten]
      rfl
    all_goals rfl

theorem localPath?_bind_slot?_eq_get? (h : (Value.map document).Distinct) (name : String) :
    (document.localPath? name).bind document.slot? = document.locals.get? name := by
  rw [localPath?_bind_slot?, declaringBlock?, Table.find?_bind_get?, get?_locals h]

theorem exists_append_of_lastDeclaring? {blocks : List Value} {i : ℕ}
    (h : lastDeclaring? name blocks = some i) : ∃ front entries back,
      blocks = front ++ .map entries :: back ∧ front.length = i ∧ name ∈ Table.keys entries ∧
        ∀ block ∈ back, declares name block = false := by
  induction blocks using List.reverseRecOn with
  | nil => cases h
  | append_singleton blocks block ih =>
    rw [lastDeclaring?_concat] at h
    split at h
    · rename_i hdeclares
      cases block with
      | map entries =>
        exact ⟨blocks, entries, [], rfl, Option.some.inj h,
          Table.contains_iff_mem_keys.mp hdeclares, List.forall_mem_nil _⟩
      | _ => cases hdeclares
    · rename_i hdeclares
      obtain ⟨front, entries, back, rfl, hlength, hname, hback⟩ := ih h
      refine ⟨front, entries, back ++ [block], by simp, hlength, hname, ?_⟩
      exact List.forall_mem_append.mpr ⟨hback, by simpa using hdeclares⟩

theorem locals_put (h : (Value.map document).Distinct) {path : Path}
    (hpath : document.localPath? name = some path) (v : Value) :
    (document.put path v).locals = document.locals.modify name fun _ => v := by
  have hput (rest : Path) : document.put (.key "locals" :: rest) v =
      Table.modify document "locals" (·.put rest v) := rfl
  unfold localPath? at hpath
  cases hlocals : Table.get? document "locals" with
  | none => simp [hlocals] at hpath
  | some u =>
    cases u <;> simp only [hlocals, reduceCtorEq] at hpath
    case map entries =>
      split at hpath <;> cases hpath
      rw [hput, locals, locals, Table.get?_modify, hlocals]
      rfl
    case list blocks =>
      obtain ⟨i, hi, rfl⟩ := Option.map_eq_some_iff.mp hpath
      obtain ⟨front, entries, back, rfl, rfl, hname, hback⟩ := exists_append_of_lastDeclaring? hi
      have hdistinct : entries.keys.Nodup := nodup_keys_of_mem_localsBlocks h (by
        rw [localsBlocks, hlocals]
        exact List.mem_filterMap.mpr ⟨.map entries, by simp, rfl⟩)
      have hafter : ∀ block ∈ back.filterMap Value.map?, name ∉ Table.keys block := by
        intro block hblock hmem
        obtain ⟨u, hu, hmap⟩ := List.mem_filterMap.mp hblock
        have hdeclares := hback u hu
        rw [declares, hmap, Option.any_some, Table.contains_iff_mem_keys.mpr hmem] at hdeclares
        cases hdeclares
      rw [hput, locals, locals, Table.get?_modify, hlocals]
      simp only [Option.map_some, Value.put, modify_length_append, List.filterMap_append,
        List.filterMap_cons, Value.map?, List.foldl_append, List.foldl_cons]
      rw [Table.merge_modify _ hdistinct hname, Table.foldl_merge_modify _ hafter]

theorem isSome_localPath?_iff (h : (Value.map document).Distinct) (name : String) :
    (document.localPath? name).isSome ↔ name ∈ document.locals.keys := by
  rw [← Table.contains_iff_mem_keys, Table.contains, ← localPath?_bind_slot?_eq_get? h]
  cases hpath : document.localPath? name with
  | none => simp
  | some path =>
    obtain ⟨v, hv⟩ := exists_slot?_of_localPath? hpath
    simp [hv]

end Document

namespace Reduction

section
variable {setting : Setting} {depth : ℕ} {s : State}

theorem origin?_local (hbound : bound? s.scopes "local" = none) :
    origin? s "local" = some .locals := by
  unfold bound? at hbound
  unfold origin?
  rw [hbound]
  rfl

theorem outcome_local_selected (hdepth : 0 < depth) (hbound : bound? s.scopes "local" = none)
    {selector : Selector} {name : String} (hname : selector.accessor = .ok (.name name))
    (rest : List Node) :
    (resolveSegments (reduceNode setting depth) setting depth
      (.segment "local" :: selector.node :: rest)).outcome s =
        (follow (reduceNode setting depth) setting depth
          ((s.document.localPath? name).map .slot) rest).outcome s := by
  have haccessor := outcome_accessor? setting selector hdepth s
  rw [hname] at haccessor
  rw [outcome_resolveSegments_name, origin?_local hbound, follow, Eval.outcome_bind_ok haccessor]
  rfl

end

def EvaluatesTo (reduce : Node → Eval Value) (v w : Value) : Prop :=
  ∃ s s', (reduceValue reduce v).outcome s = (.ok w, s')

section
variable {reduce : Node → Eval Value} {setting : Setting} {depth : ℕ} {s s' : State}

theorem evaluatesTo_of_reduceEntries {entries entries' : List (String × Value)}
    (h : (reduceEntries reduce entries).outcome s = (.ok entries', s')) :
    List.Forall₂ (fun e e' => e'.1 = e.1 ∧ EvaluatesTo reduce e.2 e'.2) entries entries' := by
  induction entries generalizing entries' s with
  | nil =>
    cases h
    exact .nil
  | cons e rest ih =>
    rw [reduceEntries, Eval.outcome_bind_eq_ok] at h
    obtain ⟨w, s₁, hw, h⟩ := h
    obtain ⟨rest', hrest, rfl⟩ := Eval.outcome_map_eq_ok.mp h
    exact .cons ⟨rfl, s, s₁, hw⟩ (ih hrest)

theorem exists_of_outcome_local {v? : Option Value} (hbound : bound? s.scopes "local" = none)
    (h : (resolveSegments reduce setting depth [.segment "local"]).outcome s = (.ok v?, s')) :
    ∃ s₁ entries, (settle reduce depth [.key "locals"]).outcome s = (.ok (), s₁) ∧
      v? = some (.map entries) ∧
      List.Forall₂ (fun e e' => e'.1 = e.1 ∧ EvaluatesTo reduce e.2 e'.2)
        s₁.document.locals entries := by
  rw [outcome_resolveSegments_name, origin?_local hbound, follow, finish,
    Eval.outcome_bind_eq_ok] at h
  obtain ⟨_, s₁, hsettle, h⟩ := h
  rw [Eval.outcome_get_bind] at h
  obtain ⟨v, hv, rfl⟩ := Eval.outcome_map_eq_ok.mp h
  obtain ⟨entries, hentries, rfl⟩ := Eval.outcome_map_eq_ok.mp hv
  exact ⟨s₁, entries, hsettle, rfl, evaluatesTo_of_reduceEntries hentries⟩

end
end Reduction

/-- In a document a name selected from `local`, as `.name` or as `["name"]`, leads to a place. -/
def LocalSelectsAt (setting : Setting) (document : Document) (name : String)
    (path? : Option Path) : Prop :=
  ∀ depth > 0, ∀ s : State, s.document = document → bound? s.scopes "local" = none →
    ∀ selector : Selector, selector.accessor = .ok (.name name) → ∀ rest : List Node,
      (resolveSegments (reduceNode setting depth) setting depth
        (.segment "local" :: selector.node :: rest)).outcome s =
          (follow (reduceNode setting depth) setting depth (path?.map .slot) rest).outcome s

/-- Where evaluating the locals leads to a document, what `local` comes to is a map that holds under
a name what the value at a place evaluates to, and nothing if there is no place. -/
def LocalHoldsFrom (setting : Setting) (document : Document) (name : String)
    (path? : Option Path) : Prop :=
  ∀ depth, ∀ s s₁ : State, bound? s.scopes "local" = none →
    (settle (reduceNode setting depth) depth [.key "locals"]).outcome s = (.ok (), s₁) →
      s₁.document = document → ∀ v? s',
        (resolveSegments (reduceNode setting depth) setting depth [.segment "local"]).outcome s =
          (.ok v?, s') →
            ∃ entries, v? = some (.map entries) ∧
              Option.Rel (EvaluatesTo (reduceNode setting depth)) (path?.bind document.slot?)
                (Table.get? entries name)

/-- Under every name the merged locals hold the value at the place where the name is declared, which
is the one in the last block that declares it, and they hold no other names; what is written there
is what they hold from then on. The name selected from `local` leads to that place, and what `local`
holds under the name is evaluated from there. -/
theorem local_names_one_declaration {document : Document}
    (hdistinct : (Value.map document).Distinct) (name : String) :
    (document.localPath? name).bind document.slot? = document.locals.get? name ∧
      document.locals.get? name = document.localsBlocks.reverse.findSome? (Table.get? · name) ∧
      ((document.localPath? name).isSome ↔ name ∈ document.locals.keys) ∧
      (∀ path, document.localPath? name = some path → ∀ v,
        (document.put path v).locals = document.locals.modify name fun _ => v) ∧
      ∀ setting : Setting, LocalSelectsAt setting document name (document.localPath? name) ∧
        LocalHoldsFrom setting document name (document.localPath? name) := by
  have hvalue := Document.localPath?_bind_slot?_eq_get? hdistinct name
  refine ⟨hvalue, Document.get?_locals hdistinct name,
    Document.isSome_localPath?_iff hdistinct name,
    fun path hpath v => Document.locals_put hdistinct hpath v,
    fun setting => ⟨?selected, ?whole⟩⟩
  case selected =>
    rintro depth hdepth s rfl hbound selector hname rest
    exact outcome_local_selected hdepth hbound hname rest
  case whole =>
    rintro depth s s₁ hbound hsettle rfl v? s' h
    obtain ⟨s₂, entries, hsettle', rfl, hentries⟩ := exists_of_outcome_local hbound h
    obtain ⟨-, rfl⟩ := Prod.mk.inj (hsettle.symm.trans hsettle')
    refine ⟨entries, rfl, ?_⟩
    rw [hvalue]
    exact Table.rel_get? hentries name

def overlappingLocals : Document :=
  [("locals", .list [.map [("a", .bool true), ("b", .node (.reference [.segment "x"]))], .null,
    .map [("a", .bool false)]])]

theorem overlappingLocals_distinct : (Value.map overlappingLocals).Distinct := by
  refine .map (by decide) (List.forall_mem_singleton.mpr (.list (List.forall_mem_cons.mpr
    ⟨.map (by decide) ?first, List.forall_mem_cons.mpr
      ⟨.null, List.forall_mem_singleton.mpr (.map (by decide) ?last)⟩⟩)))
  case first => exact List.forall_mem_cons.mpr ⟨.bool _, List.forall_mem_singleton.mpr (.node _)⟩
  case last => exact List.forall_mem_singleton.mpr (.bool _)

def overlappingState : State := { document := overlappingLocals }

theorem local_names_one_declaration_overlapping :
    (Value.map overlappingLocals).Distinct ∧
      Document.localPath? overlappingLocals "a" = some [.key "locals", .index 2, .key "a"] ∧
      (Document.put overlappingLocals [.key "locals", .index 2, .key "a"] .null).locals =
        [("a", .null), ("b", .node (.reference [.segment "x"]))] ∧
      (resolveSegments (reduceNode ⟨[], [], [], 64⟩ 8) ⟨[], [], [], 64⟩ 8
        [.segment "local", .array [.string "a"]]).outcome overlappingState =
          (.ok (some (.bool false)), overlappingState) ∧
      ∃ entries w, (resolveSegments (reduceNode ⟨[], [], [], 64⟩ 8) ⟨[], [], [], 64⟩ 8
          [.segment "local"]).outcome overlappingState =
            (.ok (some (.map entries)), overlappingState) ∧
        Table.get? entries "a" = some w ∧
          EvaluatesTo (reduceNode ⟨[], [], [], 64⟩ 8) (.bool false) w := by
  obtain ⟨-, -, -, hstored, hreferences⟩ :=
    local_names_one_declaration overlappingLocals_distinct "a"
  obtain ⟨hselects, hholds⟩ := hreferences ⟨[], [], [], 64⟩
  have hpath : Document.localPath? overlappingLocals "a" =
      some [.key "locals", .index 2, .key "a"] := by decide
  have hsettle : (settle (reduceNode ⟨[], [], [], 64⟩ 8) 8 [.key "locals"]).outcome
      overlappingState = (.ok (), overlappingState) := by rfl
  have hlocal : (resolveSegments (reduceNode ⟨[], [], [], 64⟩ 8) ⟨[], [], [], 64⟩ 8
      [.segment "local"]).outcome overlappingState =
        (.ok (some (.map overlappingLocals.locals)), overlappingState) := by rfl
  refine ⟨overlappingLocals_distinct, hpath, hstored _ hpath .null, ?selected, ?whole⟩
  case selected =>
    have hselected := hselects 8 (by decide) overlappingState rfl rfl (.key "a") rfl []
    rw [hpath] at hselected
    exact hselected
  case whole =>
    obtain ⟨entries, hentries, hrel⟩ := hholds 8 _ _ rfl hsettle rfl _ _ hlocal
    rw [hpath] at hrel
    generalize hget : Table.get? entries "a" = w? at hrel
    cases hrel with
    | some hw =>
      rw [hentries] at hlocal
      exact ⟨entries, _, hlocal, hget, hw⟩

end HclEval
