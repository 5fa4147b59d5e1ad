import HclEval.Proofs.OrderIndependence
import HclEval.Proofs.Resolution
import Mathlib.Data.List.Find
import Mathlib.Data.List.Induction

/-!
What a reference returns is what the document shows in the end. The value is read at a moment when
the document may be evaluated in part only, but every tree on the way is replaced by its meaning,
then or later, so the names lead to the same value in the final document.
-/
namespace HclEval

open Filter Reduction

variable {setting : Setting} {document : Document}

theorem Value.pointer?_cons (v : Value) (name : String) (rest : List String) :
    v.pointer? (name :: rest) = (v.select? (.name name)).bind (·.pointer? rest) := by
  have hselect : v.select? (.name name) = v.map?.bind (Table.get? · name) := by
    cases v <;> rfl
  rw [hselect, Option.bind_assoc]
  rfl

theorem Value.stepTo?_bind_child? (v : Value) (name : String) :
    (v.stepTo? (.name name)).bind v.child? = v.select? (.name name) := by
  cases v
  case map entries =>
    simp only [stepTo?, select?]
    by_cases hcontains : Table.contains entries name = true
    · rw [if_pos hcontains]
      rfl
    · rw [if_neg hcontains]
      have hnone : Table.get? entries name = none := by simpa [Table.contains] using hcontains
      rw [hnone]
      rfl
  all_goals rfl

theorem exists_forced_of_settled {u w : Value} (huw : u.Fills (becoming setting document) w)
    (hw : Settled setting document w) :
    ∃ u', (∀ᶠ i in atTop, (force (meaning setting document i) u).outcome {} = (.ok u', {})) ∧
      Forced setting document u' w := by
  refine exists_forced huw hw.plain ?_
  cases w
  case node tree =>
    exact .inl ⟨tree, rfl, ((Value.every_node _).1 hw).means, hw⟩
  all_goals exact .inr ⟨by simp, rfl⟩

theorem eventually_read_entry {u w : Value} (huw : u.Fills (becoming setting document) w)
    (hw : Settled setting document w) (names : List String) :
    ∀ᶠ i in atTop, (read (meaning setting document i) setting document (some (.entry u))
      (names.map .segment)).outcome {} = (.ok (w.pointer? names), {}) := by
  induction names generalizing u w with
  | nil =>
    filter_upwards [eventually_reduceValue huw hw] with i hi
    rw [List.map_nil, Reduction.read, arrive, Eval.outcome_bind_ok hi]
    rfl
  | cons name rest ih =>
    obtain ⟨u', hforce, hforced⟩ := exists_forced_of_settled huw hw
    have honward : ∀ᶠ i in atTop, (onward (meaning setting document i) setting document
        (.name name) (.entry u)).outcome {} = (.ok ((u'.select? (.name name)).map .entry), {}) := by
      filter_upwards [hforce] with i hi
      rw [onward, Eval.outcome_bind_ok hi, Value.stepTo?_bind_child?]
      rfl
    have hstep (i : ℕ) : (read (meaning setting document i) setting document (some (.entry u))
        ((name :: rest).map .segment)).outcome {} =
          (onward (meaning setting document i) setting document (.name name) (.entry u) >>=
            fun view? => read (meaning setting document i) setting document view?
              (rest.map .segment)).outcome {} := rfl
    have hrel := hforced.select? (.name name)
    have hsettled : ∀ c, w.select? (.name name) = some c → Settled setting document c :=
      fun c hc => hw.select? hc
    rw [Value.pointer?_cons]
    generalize u'.select? (.name name) = c? at hrel honward
    generalize w.select? (.name name) = c?' at hrel hsettled
    cases hrel with
    | none =>
      filter_upwards [honward] with i hi
      rw [hstep, Eval.outcome_bind_ok hi]
      cases rest <;> rfl
    | some hcc =>
      filter_upwards [honward, ih hcc.1 (hsettled _ rfl)] with i hi hrest
      rw [hstep, Eval.outcome_bind_ok hi]
      exact hrest

namespace Document

def localsBlocks (document : Document) : List (Table Value) :=
  match Table.get? document "locals" with
  | some (.map entries) => [entries]
  | some (.list blocks) => blocks.filterMap Value.map?
  | _ => []

def declaringBlock? (document : Document) (name : String) : Option (Table Value) :=
  document.localsBlocks.reverse.find? (Table.contains · name)

def declares (name : String) (block : Value) : Bool := block.map?.any (Table.contains · name)

theorem lastDeclaring?_eq (name : String) (blocks : List Value) : lastDeclaring? name blocks =
    (List.range blocks.length).reverse.find? fun i => blocks[i]?.any (declares name) := by
  unfold lastDeclaring?
  congr 1
  funext i
  cases blocks[i]? with
  | none => rfl
  | some block => cases block <;> rfl

theorem lastDeclaring?_concat (name : String) (blocks : List Value) (block : Value) :
    lastDeclaring? name (blocks ++ [block]) =
      if declares name block then some blocks.length else lastDeclaring? name blocks := by
  have hbefore : ((List.range blocks.length).reverse.find? fun i =>
      (blocks ++ [block])[i]?.any (declares name)) = lastDeclaring? name blocks := by
    rw [lastDeclaring?_eq]
    refine List.find?_congr fun i hi => ?_
    rw [List.getElem?_append_left (by simpa using hi)]
  have hlast : (blocks ++ [block])[blocks.length]? = some block := by simp
  rw [lastDeclaring?_eq, List.length_append, List.length_singleton, List.range_succ,
    List.reverse_append, List.reverse_singleton, List.singleton_append, List.find?_cons, hlast,
    Option.any_some, hbefore]
  cases declares name block <;> rfl

theorem lastDeclaring?_lt {name : String} {blocks : List Value} {i : ℕ}
    (h : lastDeclaring? name blocks = some i) : i < blocks.length := by
  simpa using List.mem_of_find?_eq_some h

theorem lastDeclaring?_bind_getElem? (name : String) (blocks : List Value) :
    ((lastDeclaring? name blocks).bind fun i => blocks[i]?) =
      blocks.reverse.find? (declares name) := by
  induction blocks using List.reverseRecOn with
  | nil => rfl
  | append_singleton blocks block ih =>
    rw [lastDeclaring?_concat, List.reverse_append, List.reverse_singleton,
      List.singleton_append, List.find?_cons]
    cases declares name block with
    | true => simp
    | false =>
      rw [← ih]
      cases hi : lastDeclaring? name blocks with
      | none => simp
      | some i => simpa [hi] using List.getElem?_append_left (lastDeclaring?_lt hi)

theorem localPath?_bind_slot? (document : Document) (name : String) :
    (document.localPath? name).bind document.slot? =
      (document.declaringBlock? name).bind (Table.get? · name) := by
  unfold localPath? declaringBlock? localsBlocks
  cases hlocals : Table.get? document "locals" with
  | none => rfl
  | some v =>
    cases v
    case map entries =>
      simp only [List.reverse_singleton, List.find?_singleton]
      split
      · simp [slot?, Value.at?, Value.child?, hlocals]
      · rfl
    case list blocks =>
      have hslot (i : ℕ) : document.slot? [.key "locals", .index i, .key name] =
          (blocks[i]?.bind Value.map?).bind (Table.get? · name) := by
        simp only [slot?, Value.at?, Value.child?, hlocals, Option.bind_some]
        cases blocks[i]? with
        | none => rfl
        | some block => cases block <;> simp [Value.map?]
      simp only [Option.bind_map, Function.comp_def, hslot]
      rw [← List.filterMap_reverse, List.find?_filterMap, ← Option.bind_assoc, ← Option.bind_assoc,
        lastDeclaring?_bind_getElem?]
      rfl
    all_goals rfl

end Document
/-- The value that a local name and further names lead to in the document. -/
def Document.localValue? (document : Document) (name : String) (names : List String) :
    Option Value :=
  (document.declaringBlock? name).bind fun block => (Value.map block).pointer? (name :: names)

theorem eventually_read {u? w? : Option Value}
    (hrel : Option.Rel (Value.Fills (becoming setting document)) u? w?)
    (hw : ∀ w, w? = some w → Settled setting document w) (names : List String) :
    ∀ᶠ i in atTop, (read (meaning setting document i) setting document (u?.map .entry)
      (names.map .segment)).outcome {} = (.ok (w?.bind (·.pointer? names)), {}) := by
  cases hrel with
  | none =>
    refine .of_forall fun i => ?_
    cases names <;> rfl
  | some huw => exact eventually_read_entry huw (hw _ rfl) names

section
variable {final : Document} (hfills : (Value.map document).Fills (becoming setting document)
  (.map final)) (hsettled : Settled setting document (.map final))
include hfills hsettled

theorem eventually_readSegments {name : String} (hlocal : name ≠ "local") (hvar : name ≠ "var")
    (hdata : name ≠ "data") (names : List String) :
    ∀ᶠ i in atTop, (readSegments (meaning setting document i) setting document
      (.segment name :: names.map .segment)).outcome {} =
        (.ok ((Value.map final).pointer? (name :: names)), {}) := by
  have hbeginning : beginning? document name = (Table.get? document name).map .entry := by
    unfold beginning?
    split
    · exact absurd rfl hlocal
    · exact absurd rfl hvar
    · exact absurd rfl hdata
    · rfl
  have hread (i : ℕ) : readSegments (meaning setting document i) setting document
      (.segment name :: names.map .segment) = read (meaning setting document i) setting document
        ((Table.get? document name).map .entry) (names.map .segment) := by
    rw [← hbeginning]
    rfl
  have hrel := Value.fillsEntry_get? (Value.fills_map_map.1 hfills) name
  simp only [hread, Value.pointer?_cons]
  refine eventually_read hrel (fun w hw => ?_) names
  have hselect : (Value.map final).select? (.name name) = some w := hw
  exact hsettled.select? hselect

theorem eventually_readSegments_local (hshape : document.Shaped) (name : String)
    (names : List String) :
    ∀ᶠ i in atTop, (readSegments (meaning setting document i) setting document
      (.segment "local" :: .segment name :: names.map .segment)).outcome {} =
        (.ok (final.localValue? name names), {}) := by
  have hread (i : ℕ) : readSegments (meaning setting document i) setting document
      (.segment "local" :: .segment name :: names.map .segment) =
        read (meaning setting document i) setting document
          (((document.localPath? name).bind document.slot?).map .entry) (names.map .segment) := by
    have hview : ((document.localPath? name).bind document.slot?).map View.entry =
        (document.localPath? name).bind (entryAt? document) := by
      cases document.localPath? name <;> rfl
    rw [hview]
    rfl
  have hrel : Option.Rel (Value.Fills (becoming setting document))
      ((document.localPath? name).bind document.slot?)
      ((final.localPath? name).bind final.slot?) := by
    rw [hshape.localPath?_eq hfills]
    cases hpath : document.localPath? name with
    | none => exact .none
    | some path =>
      obtain ⟨u, hu⟩ := Document.exists_slot?_of_localPath? hpath
      obtain ⟨w, hw, huw⟩ := hfills.at? hu
      rw [Option.bind_some, Option.bind_some, hu, Document.slot?, hw]
      exact .some huw
  have hw (w : Value) (hw : (final.localPath? name).bind final.slot? = some w) :
      Settled setting document w := by
    obtain ⟨path, -, hw⟩ := Option.bind_eq_some_iff.1 hw
    exact hsettled.at? hw
  have hvalue : ((final.localPath? name).bind final.slot?).bind (·.pointer? names) =
      final.localValue? name names := by
    rw [Document.localPath?_bind_slot?, Option.bind_assoc]
    rfl
  simp only [hread, ← hvalue]
  exact eventually_read hrel hw names

end

theorem means_reference {segments : List Node} {v? : Option Value}
    (h : ∀ᶠ i in atTop, (readSegments (meaning setting document i) setting document
      segments).outcome {} = (.ok v?, {})) :
    Means setting document (.reference segments) (v?.getD (.node (.reference segments))) := by
  refine means_of_eventually (h.mono fun i hi => ?_)
  simp only [stepWith, readReference, Eval.outcome_bind_ok hi]
  cases v? <;> rfl

theorem means_named {name : String} {segments : List Node} {position : Option Position} {v : Value}
    (h : Means setting document (.reference segments) v) :
    Means setting document (.named name [.reference segments] position) v := by
  refine means_of_eventually (h.mono fun i hi => ?_)
  rw [← hi]
  exact outcome_evaluate_reference _ segments {}

theorem get?_of_structureEach_append {reduce : Node → Eval Value} {before : List Node}
    {name : String} {segments : List Node} {position : Option Position} {table table' : Table Value}
    {s s' : State}
    (h : (structureEach reduce (before ++ [.named name [.reference segments] position])).outcome
      table s = ((.ok (), table'), s')) :
    table'.get? name = some (.node (.named name [.reference segments] position)) := by
  induction before generalizing table s with
  | nil =>
    obtain ⟨table₁, s₁, hnode, hrest⟩ := structureEach_cons_ok h
    obtain ⟨v, hv, rfl⟩ := named_ok hnode
    cases hv
    cases hrest
    rw [Table.get?_insert, if_pos rfl]
  | cons node rest ih =>
    obtain ⟨table₁, s₁, -, hrest⟩ := structureEach_cons_ok h
    exact ih hrest

theorem EvaluatedFrom.shaped {depth : ℕ} {nodes : List Node} {table final : Document}
    (h : EvaluatedFrom setting depth nodes table final)
    (hnodes : ∀ node ∈ nodes, node.isTopLevel = true) : table.Shaped := by
  have hentry (key : String) : ∃ u : Table Value, Document.Shaped u ∧
      u.get? key = Table.get? table key := by
    obtain ⟨u, t, hu, hget⟩ := h.entry key
    have hnil : Document.Shaped [] := ⟨by simp [Table.get?], by simp [Table.get?]⟩
    refine ⟨u, structureEach_keeps (p := Document.Shaped) (fun node hmem _ _ _ _ => ?_) hnil hu,
      hget⟩
    exact shaped_structureNode (hnodes node (List.mem_of_mem_filter hmem))
  constructor <;> intro v hv
  · obtain ⟨u, hu, hget⟩ := hentry "locals"
    exact hu.locals v (hget.trans hv)
  · obtain ⟨u, hu, hget⟩ := hentry "variable"
    exact hu.declared v (hget.trans hv)

/-- An attribute that is one reference made of names has the value that the names lead to in the
final document, from the top level or, after `local`, in the last block that declares the first
of them; where there is no such value it is the reference. -/
theorem reference_shows_document (hsetting : setting.Pure) {before after : List Node}
    {key : String} {names : List String} {position : Option Position}
    (hnodes : ∀ node ∈ before ++ .named key [.reference (names.map .segment)] position :: after,
      node.isTopLevel = true ∧ node.Plain)
    (hlast : ∀ node ∈ after, node.rootKey? ≠ some key) (depth : ℕ) (calls : List Call)
    (hrun : (runWithin setting depth calls
      (before ++ .named key [.reference (names.map .segment)] position :: after)).1 = .ok ()) :
    let document := (runWithin setting depth calls
      (before ++ .named key [.reference (names.map .segment)] position :: after)).2.document
    (∀ name rest, names = name :: rest → name ≠ "local" → name ≠ "var" → name ≠ "data" →
      Table.get? document key = some (((Value.map document).pointer? (name :: rest)).getD
        (.node (.reference (names.map .segment))))) ∧
      ∀ name rest, names = "local" :: name :: rest →
        Table.get? document key = some ((document.localValue? name rest).getD
          (.node (.reference (names.map .segment)))) := by
  intro final
  set written : Node := .named key [.reference (names.map .segment)] position with hwritten
  obtain ⟨table, E⟩ := exists_evaluatedFrom hsetting hnodes hrun
  have hentry : Table.get? table key = some (.node written) := by
    obtain ⟨u, t, hu, hget⟩ := E.entry key
    have hafter : after.filter (·.rootKey? = some key) = [] :=
      List.filter_eq_nil_iff.2 fun node hmem => by simpa using hlast node hmem
    rw [List.filter_append, List.filter_cons_of_pos (by simp [hwritten, Node.rootKey?]),
      hafter] at hu
    rw [← hget]
    exact get?_of_structureEach_append hu
  have hmeant {v? : Option Value} (h : ∀ᶠ i in atTop, (readSegments (meaning setting table i)
      setting table (names.map .segment)).outcome {} = (.ok v?, {})) :
      Table.get? final key = some (v?.getD (.node (.reference (names.map .segment)))) := by
    have hmeans : Means setting table written _ := means_named (means_reference h)
    have hrel := Value.fillsEntry_get? (Value.fills_map_map.1 E.fills) key
    rw [hentry] at hrel
    cases hv : Table.get? final key with
    | none =>
      rw [hv] at hrel
      cases hrel
    | some v =>
      rw [hv] at hrel
      cases hrel with
      | some hfills =>
        rcases (Value.fills_node ..).1 hfills with rfl | hbecomes
        · have hunmet := (Value.every_map _).1 E.settled _ (Table.mem_of_get? hv)
          cases ((Value.every_node _).1 hunmet).isReference
        · rw [hbecomes.1.unique hmeans]
  refine ⟨?_, ?_⟩
  · rintro name rest rfl hlocal hvar hdata
    exact hmeant (eventually_readSegments E.fills E.settled hlocal hvar hdata rest)
  · rintro name rest rfl
    have hshape := E.shaped fun node hmem => (hnodes node hmem).1
    exact hmeant (eventually_readSegments_local E.fills E.settled hshape name rest)

def forwardNodes : List Node :=
  [.named "alias" [.reference [.segment "local", .segment "base"]] none,
    .block ["locals"] [.named "base" [.block [] [.named "k" [.reference [.segment "in"]] none]
      none] none] none,
    .named "in" [.literal .number "2"] none]

theorem reference_shows_document_forward :
    let document := (run ⟨[], [], [], 64⟩ []
      (.named "out" [.reference [.segment "alias", .segment "k"]] none :: forwardNodes)).2.document
    Table.get? document "out" = some (((Value.map document).pointer? ["alias", "k"]).getD
      (.node (.reference [.segment "alias", .segment "k"]))) ∧
      ((Value.map document).pointer? ["alias", "k"]).bind Value.number? = some (.ofNat 2) := by
  have hsetting : (⟨[], [], [], 64⟩ : Setting).Pure := ⟨by simp, by simp [Table.get?]⟩
  have hnodes : ∀ node ∈ [] ++ .named "out" [.reference (["alias", "k"].map .segment)] none ::
      forwardNodes, node.isTopLevel = true ∧ node.Plain := by
    repeat' first
      | exact List.forall_mem_nil _
      | refine List.forall_mem_cons.2 ⟨?_, ?_⟩
      | refine ⟨rfl, .intro _ ⟨rfl, rfl⟩ ?_⟩
      | refine .intro _ ⟨rfl, rfl⟩ ?_
  have hlast : ∀ node ∈ forwardNodes, node.rootKey? ≠ some "out" := by
    simp [forwardNodes, Node.rootKey?]
  have hrun : (run ⟨[], [], [], 64⟩ [] ([] ++ .named "out"
      [.reference (["alias", "k"].map .segment)] none :: forwardNodes)).1 = .ok () := by
    decide +kernel
  have hshown := reference_shows_document hsetting hnodes hlast _ [] hrun
  exact ⟨hshown.1 "alias" ["k"] rfl (by decide) (by decide) (by decide), by decide +kernel⟩

end HclEval
