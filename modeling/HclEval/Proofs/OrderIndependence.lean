import HclEval.Proofs.Meaning.Building
import HclEval.Proofs.Meaning.Evaluation
import HclEval.Proofs.RecursionLimit

/-!
The order of top level nodes does not matter. What a tree means depends on the entries of the
document that the first pass built and not on their order, an entry depends on the nodes with its
root key, and the second pass replaces every tree by its meaning. So two orders of the same nodes
come to the same values, if both come to an end and nodes with equal root keys keep their order.
-/
namespace HclEval

open Filter Reduction

variable {setting : Setting} {document document' : Document}

namespace Document

def SameEntries (document document' : Document) : Prop :=
  ∀ key, Table.get? document' key = Table.get? document key

variable (h : document.SameEntries document')
include h

theorem SameEntries.locals_eq : document'.locals = document.locals := by
  rw [Document.locals, Document.locals, h]

theorem SameEntries.localPath?_eq (name : String) :
    document'.localPath? name = document.localPath? name := by
  rw [Document.localPath?, Document.localPath?, h]

theorem SameEntries.slot?_eq (name : String) (path : Path) :
    document'.slot? (.key name :: path) = document.slot? (.key name :: path) := by
  have hkey : Table.get? document' name = Table.get? document name := h name
  simp only [slot?, Value.at?, Value.child?, hkey]

end Document

namespace Reduction

theorem localPath?_key {name : String} {path : Path} (h : document.localPath? name = some path) :
    ∃ rest, path = .key "locals" :: rest := by
  unfold Document.localPath? at h
  split at h
  · split at h
    · cases h
      exact ⟨_, rfl⟩
    · cases h
  · obtain ⟨i, -, rfl⟩ := Option.map_eq_some_iff.1 h
    exact ⟨_, rfl⟩
  · cases h

theorem variableDefault?_key {name : String} {path : Path}
    (h : variableDefault? document name = some (.slot path)) :
    ∃ rest, path = .key "variable" :: rest := by
  rw [variableDefault?_def] at h
  obtain ⟨⟨block, blockPath⟩, hblock, hdefault⟩ := Option.map_eq_some_iff.1 h
  obtain ⟨v, -, hlast⟩ := Option.bind_eq_some_iff.1 hblock
  have hpath : ∃ rest, blockPath = .key "variable" :: rest := by
    cases v
    case list blocks =>
      obtain ⟨last, -, hlast⟩ := Option.map_eq_some_iff.1 hlast
      cases hlast
      exact ⟨_, rfl⟩
    all_goals
      cases hlast
      exact ⟨_, rfl⟩
  obtain ⟨rest, rfl⟩ := hpath
  unfold defaultOf at hdefault
  split at hdefault
  · split at hdefault
    · cases hdefault
      exact ⟨_, rfl⟩
    · cases hdefault
  · cases hdefault
    exact ⟨_, rfl⟩

section
variable (h : document.SameEntries document')
include h

theorem variableDefault?_congr (name : String) :
    variableDefault? document' name = variableDefault? document name := by
  rw [variableDefault?_def, variableDefault?_def, h]

theorem variableView?_congr (accessor : Accessor) :
    variableView? setting document' accessor = variableView? setting document accessor := by
  cases accessor with
  | index x =>
    unfold variableView?
    simp only [variableAt?]
    cases x.index? with
    | none => rfl
    | some i =>
      simp only [Option.bind_eq_bind, Option.bind_some]
      cases setting.vars[i]? <;> rfl
  | name name =>
    unfold variableView?
    simp only [variableAt?, variableDefault?_congr h]
    cases setting.vars.get? name with
    | some v => rfl
    | none =>
      simp only
      cases hc : variableDefault? document name with
      | none => rfl
      | some cursor =>
        rcases variableDefault?_cases hc with rfl | ⟨path, rfl⟩
        · rfl
        · obtain ⟨rest, rfl⟩ := variableDefault?_key hc
          simp only [Option.bind_eq_bind, Option.bind_some, entryAt?, h.slot?_eq]

theorem onward_congr (reduce : Node → Eval Value) (accessor : Accessor) (view : View) :
    onward reduce setting document' accessor view =
      onward reduce setting document accessor view := by
  cases view with
  | value v => rfl
  | entry v => rfl
  | locals =>
    cases accessor with
    | index x => simp only [onward, h.locals_eq]
    | name name =>
      simp only [onward, h.localPath?_eq]
      cases hpath : document.localPath? name with
      | none => rfl
      | some path =>
        obtain ⟨rest, rfl⟩ := localPath?_key hpath
        simp only [Option.bind_some, entryAt?, h.slot?_eq]
  | vars => simp only [onward, variableView?_congr h]

theorem read_congr (reduce : Node → Eval Value) (view? : Option View) (segments : List Node) :
    read reduce setting document' view? segments = read reduce setting document view? segments := by
  induction segments generalizing view? with
  | nil =>
    cases view? with
    | none => rfl
    | some view => cases view <;> simp only [read, arrive, h.locals_eq]
  | cons segment rest ih =>
    cases view? with
    | none => rfl
    | some view => simp only [read, onward_congr h, ih]

theorem readReference_congr (reduce : Node → Eval Value) :
    readReference reduce setting document' = readReference reduce setting document := by
  have hbeginning (name : String) : beginning? document' name = beginning? document name := by
    unfold beginning?
    rw [h]
  funext segments
  unfold readReference
  congr 1
  unfold readSegments
  split <;> simp only [hbeginning, read_congr h]

theorem meaning_congr (depth : ℕ) :
    meaning setting document' depth = meaning setting document depth := by
  funext node
  induction depth generalizing node with
  | zero => rfl
  | succ depth ih =>
    have ih : meaning setting document' depth = meaning setting document depth := funext ih
    rw [meaning, meaning, ih, readReference_congr h]

end

end Reduction

section
variable (h : document.SameEntries document')
include h

theorem means_congr : Means setting document' = Means setting document := by
  unfold Means
  simp only [meaning_congr h]

theorem settled_congr : Settled setting document' = Settled setting document := by
  have hmeans : Means setting document' = Means setting document := means_congr h
  have hunmet : Unmet setting document' = Unmet setting document := by
    funext tree
    refine propext ⟨fun hu => ?_, fun hu => ?_⟩
    · exact ⟨hu.plain, hu.isReference, hmeans ▸ hu.means⟩
    · exact ⟨hu.plain, hu.isReference, hmeans ▸ hu.means⟩
  unfold Settled
  rw [hunmet]

theorem becoming_congr : becoming setting document' = becoming setting document := by
  unfold becoming
  rw [means_congr h, settled_congr h]

end

theorem eq_of_fills_settled {u? v? w? : Option Value}
    (hv : Option.Rel (Value.Fills (becoming setting document)) u? v?)
    (hw : Option.Rel (Value.Fills (becoming setting document)) u? w?)
    (hsettled : ∀ v, v? = some v → Settled setting document v)
    (hsettled' : ∀ w, w? = some w → Settled setting document w) : w? = v? := by
  cases hv with
  | none =>
    cases hw
    rfl
  | some huv =>
    cases hw with
    | some huw => rw [(hsettled _ rfl).unique (hsettled' _ rfl) huv huw]

/-- The same nodes, those with equal root keys in the same order. -/
structure Reordering (nodes nodes' : List Node) : Prop where
  perm : nodes.Perm nodes'
  sameOrder : ∀ key,
    nodes'.filter (·.rootKey? = some key) = nodes.filter (·.rootKey? = some key)

structure EvaluatedFrom (setting : Setting) (depth : ℕ) (nodes : List Node)
    (table document : Document) : Prop where
  entry : ∀ key, ∃ (u : Table Value) (t : State),
    (structureEach (reduceNode setting depth)
      (nodes.filter (·.rootKey? = some key))).outcome [] {} = ((.ok (), u), t) ∧
        u.get? key = Table.get? table key
  nodup : (Table.keys table).Nodup
  fills : (Value.map table).Fills (becoming setting table) (.map document)
  settled : Settled setting table (.map document)

structure Structured (s : State) : Prop where
  shaped : s.document.Shaped
  staged : (Value.map s.document).Staged Node.Plain fun _ => False
  cache : s.cache = []
  scopes : s.scopes = []

theorem building_start (calls : List Call) : Coupling.building.rel { calls } {} :=
  ⟨⟨rfl, rfl, rfl⟩, ⟨rfl, rfl, rfl⟩, rfl⟩

theorem structured_of_structureEach (hsetting : setting.Pure) {nodes : List Node}
    (hnodes : ∀ node ∈ nodes, node.isTopLevel = true ∧ node.Plain) {calls : List Call} {depth : ℕ}
    {table : Table Value} {s : State}
    (hbuild : (structureEach (reduceNode setting depth) nodes).outcome [] { calls } =
      ((.ok (), table), s)) : Structured { s with document := table } := by
  have hplain : ∀ node ∈ nodes, node.Plain := fun node hmem => (hnodes node hmem).2
  obtain ⟨_, -, hearly, -, -, hstaged, -⟩ := Coupling.building_structureEach hsetting _ hplain
    { calls } {} [] (building_start calls) (by simp) _ _ _ hbuild fun e he => by cases he
  have hnil : Document.Shaped [] := ⟨by simp [Table.get?], by simp [Table.get?]⟩
  have hshape : Document.Shaped table := structureEach_keeps (p := Document.Shaped)
    (fun node hmem _ _ _ _ => shaped_structureNode (hnodes node hmem).1) hnil hbuild
  exact ⟨hshape, hstaged, hearly.1.cache, hearly.1.scopes⟩

theorem exists_evaluatedFrom (hsetting : setting.Pure) {nodes : List Node}
    (hnodes : ∀ node ∈ nodes, node.isTopLevel = true ∧ node.Plain) {depth : ℕ} {calls : List Call}
    (hrun : (runWithin setting depth calls nodes).1 = .ok ()) :
    ∃ table, EvaluatedFrom setting depth nodes table
      (runWithin setting depth calls nodes).2.document := by
  obtain ⟨table, s, hbuild, hpass⟩ := exists_passes_of_run hrun
  have hfirst := structured_of_structureEach hsetting hnodes hbuild
  have hroots : ∀ node ∈ nodes, node.Plain ∧ ∃ key, node.rootKey? = some key :=
    fun node hmem => ⟨(hnodes node hmem).2, Node.exists_rootKey? (hnodes node hmem).1⟩
  have hnone : (Table.keys ([] : Table Value)).Nodup := List.nodup_nil
  have hnodup : (Table.keys table).Nodup := structureEach_keeps
    (p := fun table => (Table.keys table).Nodup)
    (fun node hmem _ _ _ _ => nodup_structureNode (hroots node hmem).2.choose_spec)
    hnone hbuild
  have hsettled := settled_of_resolveDocument hsetting hfirst.shaped hfirst.staged depth rfl
    hfirst.scopes hpass
  have hentry (key : String) :=
    structureEach_entry hsetting _ key hroots (building_start calls) rfl hbuild
  exact ⟨table, hentry, hnodup, hsettled.1, hsettled.2⟩

/-- In whatever order top level nodes are written, if those with equal root keys keep theirs, the
documents have the same keys and the same values, provided that both can be evaluated, each to some
depth. -/
theorem order_independence (hsetting : setting.Pure) {nodes nodes' : List Node}
    (hnodes : ∀ node ∈ nodes, node.isTopLevel = true ∧ node.Plain)
    (horder : Reordering nodes nodes') (depth depth' : ℕ) (calls calls' : List Call)
    (hrun : (runWithin setting depth calls nodes).1 = .ok ())
    (hrun' : (runWithin setting depth' calls' nodes').1 = .ok ()) :
    (Table.keys (runWithin setting depth calls nodes).2.document).Perm
        (Table.keys (runWithin setting depth' calls' nodes').2.document) ∧
      ∀ key, Table.get? (runWithin setting depth' calls' nodes').2.document key =
        Table.get? (runWithin setting depth calls nodes).2.document key := by
  have hmem : ∀ node ∈ nodes', node.isTopLevel = true ∧ node.Plain :=
    fun node h => hnodes node (horder.perm.mem_iff.2 h)
  -- the entries are compared at one depth, which both runs stay within
  have hdeeper := runWithin_of_le (le_max_left depth depth') hrun
  have hdeeper' := runWithin_of_le (le_max_right depth depth') hrun'
  rw [← hdeeper, ← hdeeper']
  rw [← hdeeper] at hrun
  rw [← hdeeper'] at hrun'
  obtain ⟨table, E⟩ := exists_evaluatedFrom hsetting hnodes hrun
  obtain ⟨table', E'⟩ := exists_evaluatedFrom hsetting hmem hrun'
  set final := (runWithin setting (max depth depth') calls nodes).2.document
  set final' := (runWithin setting (max depth depth') calls' nodes').2.document
  have hentries : Document.SameEntries table table' := by
    intro key
    obtain ⟨u, t, hu, hkey⟩ := E.entry key
    obtain ⟨u', t', hu', hkey'⟩ := E'.entry key
    rw [horder.sameOrder, hu] at hu'
    cases hu'
    exact hkey'.symm.trans hkey
  have hsettled : Settled setting table (.map final') := by
    rw [← settled_congr hentries]
    exact E'.settled
  have hget (key : String) : Table.get? final' key = Table.get? final key := by
    have hfills := Value.fillsEntry_get? (Value.fills_map_map.1 E.fills) key
    have hfills' := Value.fillsEntry_get? (Value.fills_map_map.1 E'.fills) key
    rw [hentries key, becoming_congr hentries] at hfills'
    exact eq_of_fills_settled hfills hfills'
      (fun v hv => (Value.every_map _).1 E.settled _ (Table.mem_of_get? hv))
      fun v hv => (Value.every_map _).1 hsettled _ (Table.mem_of_get? hv)
  have hnodup : (Table.keys final).Nodup := by
    rw [Value.keys_of_fills (Value.fills_map_map.1 E.fills)]
    exact E.nodup
  have hnodup' : (Table.keys final').Nodup := by
    rw [Value.keys_of_fills (Value.fills_map_map.1 E'.fills)]
    exact E'.nodup
  refine ⟨(List.perm_ext_iff_of_nodup hnodup hnodup').2 fun key => ?_, hget⟩
  rw [← Table.contains_iff_mem_keys, ← Table.contains_iff_mem_keys, Table.contains, Table.contains,
    hget]

def orderSetting : Setting :=
  ⟨[("same", fun _ values =>
    match values with
    | [v] => .ok v
    | _ => .error "one argument is expected")], [], [("size", .bool true)], 64⟩

def orderNodes : List Node :=
  [.named "out" [.reference [.segment "local", .segment "base"]] none,
    .block ["locals"] [.named "base" [.call "same" [.reference [.segment "in"]] false] none] none,
    .named "in" [.reference [.segment "var", .segment "size"]] none]

theorem order_independence_reversed :
    (run orderSetting [] orderNodes).1 = .ok () ∧
      (run orderSetting [] orderNodes.reverse).1 = .ok () ∧
        Table.get? (run orderSetting [] orderNodes.reverse).2.document "out" =
          Table.get? (run orderSetting [] orderNodes).2.document "out" := by
  have hsetting : orderSetting.Pure := by
    refine ⟨by simp [orderSetting], ?_⟩
    intro name f hf
    simp only [orderSetting, Table.get?] at hf
    split at hf
    · cases hf
      refine ⟨fun _ _ => rfl, ?_⟩
      intro values v hv p hvalues
      split at hv
      · cases hv
        exact hvalues _ (List.mem_singleton_self _)
      · cases hv
    · cases hf
  have hnodes : ∀ node ∈ orderNodes, node.isTopLevel = true ∧ node.Plain := by
    repeat' first
      | exact List.forall_mem_nil _
      | refine List.forall_mem_cons.2 ⟨?_, ?_⟩
      | refine ⟨rfl, .intro _ ⟨rfl, rfl⟩ ?_⟩
      | refine .intro _ ⟨rfl, rfl⟩ ?_
  have horder : Reordering orderNodes orderNodes.reverse := by
    refine ⟨(List.reverse_perm _).symm, fun key => ?_⟩
    by_cases hout : "out" = key
    · subst hout
      rfl
    · by_cases hlocals : "locals" = key
      · subst hlocals
        rfl
      · simp [orderNodes, List.filter_cons, Node.rootKey?, hout, hlocals]
  have hrun : (run orderSetting [] orderNodes).1 = .ok () := by decide +kernel
  have hrun' : (run orderSetting [] orderNodes.reverse).1 = .ok () := by decide +kernel
  exact ⟨hrun, hrun',
    (order_independence hsetting hnodes horder _ _ [] [] hrun hrun').2 "out"⟩

end HclEval
