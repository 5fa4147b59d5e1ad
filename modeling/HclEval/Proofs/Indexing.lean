import HclEval.Proofs.DocumentScope
import HclEval.Proofs.Depth
import HclEval.Proofs.Once.Evaluation
import HclEval.Proofs.ReferenceValues

/-!
Indexing in place and by value. Accessors are followed through a location of the document by steps,
and through a value by taking its children out. Where nothing is left to evaluate the two show the
same value at every accessor, so a reference to a top level entry gives what a reference that starts
with an expression of the same value gives, unless one of the two is in progress already.
-/
namespace HclEval

open Reduction

inductive Selector where
  | field (name : String)
  | key (text : String)
  | position (raw : String)

namespace Selector

def node : Selector → Node
  | field name => .segment name
  | key text => .array [.string text]
  | position raw => .array [.number raw]

def accessor : Selector → Except Error Accessor
  | field name | key name => .ok (.name name)
  | position raw =>
    match Number.read? raw with
    | some x => .ok (.index x)
    | none => .error (.invalidNumber raw)

theorem exists_of_accessor_error {selector : Selector} {error : Error}
    (h : selector.accessor = .error error) : ∃ raw, error = .invalidNumber raw := by
  cases selector with
  | position raw =>
    simp only [accessor] at h
    split at h <;> cases h
    exact ⟨raw, rfl⟩
  | _ => cases h

end Selector

namespace Value

def indexed : Value → List Selector → Except Error (Option Value)
  | v, [] => .ok (some v)
  | v, selector :: rest =>
    match selector.accessor with
    | .error error => .error error
    | .ok accessor =>
      match v.select? accessor with
      | some child => child.indexed rest
      | none => .ok none

/-- Values whose maps have distinct keys, as tables have that are filled key by key. -/
inductive Distinct : Value → Prop
  | null : Distinct .null
  | bool (b : Bool) : Distinct (.bool b)
  | number (x : Number) : Distinct (.number x)
  | string (text : String) : Distinct (.string text)
  | type (marker : TypeMarker) : Distinct (.type marker)
  | node (tree : Node) : Distinct (.node tree)
  | list {items : List Value} (hitems : ∀ v ∈ items, Distinct v) : Distinct (.list items)
  | map {entries : Table Value} (hkeys : entries.keys.Nodup)
    (hentries : ∀ e ∈ entries, Distinct e.2) : Distinct (.map entries)

theorem Distinct.child? {v c : Value} {step : Step} (h : v.Distinct)
    (hc : v.child? step = some c) : c.Distinct := by
  cases v <;> cases step <;> simp only [Value.child?, reduceCtorEq] at hc
  case list.index items i =>
    cases h with
    | list hitems => exact hitems c (List.mem_of_getElem? hc)
  case map.key entries name =>
    cases h with
    | map _ hentries => exact hentries _ (Table.mem_of_get? hc)

theorem Distinct.stepTo?_bind_child? {v : Value} (h : v.Distinct) (accessor : Accessor) :
    (v.stepTo? accessor).bind v.child? = v.select? accessor := by
  cases accessor with
  | name name => exact Value.stepTo?_bind_child? v name
  | index x =>
    cases hx : x.index? with
    | none => cases v <;> simp [stepTo?, select?, hx]
    | some i =>
      cases v
      case list items =>
        by_cases hi : i < items.length
        · simp [stepTo?, select?, hx, hi, Value.child?]
        · simp [stepTo?, select?, hx, hi]
      case map entries =>
        cases he : entries[i]? with
        | none => simp [stepTo?, select?, hx, he]
        | some e =>
          cases h with
          | map hkeys =>
            -- the entry at the position is found again by its key, which no other entry has
            have hget := Table.get?_of_mem hkeys (List.mem_of_getElem? he)
            simp [stepTo?, select?, hx, he, Value.child?, hget]
      all_goals rfl

theorem Distinct.exists_child? {v c : Value} {accessor : Accessor} (h : v.Distinct)
    (hc : v.select? accessor = some c) : ∃ step, v.child? step = some c := by
  rw [← h.stepTo?_bind_child?] at hc
  obtain ⟨step, -, hstep⟩ := Option.bind_eq_some_iff.mp hc
  exact ⟨step, hstep⟩

theorem exists_of_indexed_error {v : Value} {selectors : List Selector} {error : Error}
    (h : v.indexed selectors = .error error) : ∃ raw, error = .invalidNumber raw := by
  fun_induction indexed v selectors with
  | case1 => cases h
  | case2 v selector rest error' haccess =>
    cases h
    exact Selector.exists_of_accessor_error haccess
  | case3 v selector rest accessor haccess child hselect ih => exact ih h
  | case4 => cases h

theorem Every.indexed {p : Node → Prop} {v w : Value} {selectors : List Selector} (hv : v.Every p)
    (h : v.indexed selectors = .ok (some w)) : w.Every p := by
  fun_induction Value.indexed v selectors with
  | case1 =>
    cases h
    exact hv
  | case2 => cases h
  | case3 v selector rest accessor haccess child hselect ih => exact ih (hv.select? hselect) h
  | case4 => cases h

end Value

namespace Reduction

inductive Cursor.PointsTo (s : State) : Cursor → Value → Prop
  | value (v : Value) : PointsTo s (.value v) v
  | slot {path : Path} {v : Value} (h : s.document.slot? path = some v) : PointsTo s (.slot path) v

section
variable (reduce : Node → Eval Value) (setting : Setting) {depth : ℕ} {s : State} {cursor : Cursor}
  {v : Value}

theorem outcome_forceSlot_of_free {path : Path} (hslot : s.document.slot? path = some v)
    (hfree : v.Every fun _ => False) : (forceSlot reduce path).outcome s = (.ok (), s) := by
  rw [forceSlot, Eval.outcome_bind_ok (outcome_slot? hslot)]
  cases v
  case node tree => exact absurd rfl (Value.ne_node_of_free hfree tree)
  all_goals rfl

theorem Cursor.PointsTo.advance (h : cursor.PointsTo s v) (hfree : v.Every fun _ => False)
    (hdistinct : v.Distinct) (accessor : Accessor) :
    ∃ next?, (Reduction.advance reduce setting depth accessor cursor).outcome s = (.ok next?, s) ∧
      Option.Rel (Cursor.PointsTo s) next? (v.select? accessor) := by
  cases h with
  | value =>
    refine ⟨(v.select? accessor).map .value, ?_, ?_⟩
    · rw [Reduction.advance, force_of_free reduce hfree]
      rfl
    · cases v.select? accessor with
      | none => exact .none
      | some child => exact .some (.value child)
  | @slot path _ hslot =>
    refine ⟨(v.stepTo? accessor).map fun step => .slot (path ++ [step]), ?_, ?_⟩
    · rw [Reduction.advance, Eval.outcome_bind_ok (outcome_forceSlot_of_free reduce hslot hfree),
        Eval.outcome_bind_ok (outcome_slot? hslot), Option.bind_some]
      cases v.stepTo? accessor <;> rfl
    · rw [← hdistinct.stepTo?_bind_child?]
      cases hstep : v.stepTo? accessor with
      | none => exact .none
      | some step =>
        obtain ⟨child, hchild⟩ := Value.exists_child?_of_stepTo? hstep
        rw [Option.bind_some, hchild]
        refine .some (.slot ?_)
        rw [Document.slot?_append, hslot, Option.bind_some, hchild]

theorem Cursor.PointsTo.finish (h : cursor.PointsTo s v) (hfree : v.Every fun _ => False)
    (hdepth : v.size ≤ depth) :
    (Reduction.finish reduce setting depth cursor).outcome s = (.ok (some v), s) := by
  cases h with
  | value =>
    rw [Reduction.finish, Eval.outcome_bind_ok (outcome_reduceValue_of_free reduce hfree s)]
    rfl
  | slot hslot =>
    rw [Reduction.finish, Eval.outcome_bind_ok (outcome_settle_of_free reduce hslot hfree hdepth)]
    exact outcome_slot? hslot

end

section
variable (setting : Setting) {depth : ℕ} {s : State} {cursor : Cursor} {v : Value}

theorem outcome_accessor? (selector : Selector) (hdepth : 0 < depth) (s : State) :
    (accessor? (reduceNode setting depth) selector.node).outcome s =
      ((selector.accessor.map some).mapError .error, s) := by
  obtain ⟨depth, rfl⟩ := Nat.exists_eq_succ_of_ne_zero hdepth.ne'
  cases selector with
  | field name => rfl
  | key text => rfl
  | position raw =>
    have hindex : (reduceNode setting (depth + 1) (.number raw)).outcome s =
        ((literalValue .number raw).mapError .error, s) := by
      have hreduce : reduceNode setting (depth + 1) (.number raw) =
          Eval.ofExcept (literalValue .number raw) := rfl
      rw [hreduce]
      cases literalValue .number raw <;> rfl
    rw [Selector.node, accessor?, Selector.accessor]
    unfold literalValue at hindex
    cases hraw : Number.read? raw with
    | none =>
      rw [hraw] at hindex
      exact Eval.outcome_bind_error hindex _
    | some x =>
      rw [hraw] at hindex
      exact Eval.outcome_bind_ok hindex _

theorem Cursor.PointsTo.follow_cons (h : cursor.PointsTo s v) (hfree : v.Every fun _ => False)
    (hdistinct : v.Distinct) (hdepth : 0 < depth) {selector : Selector} {accessor : Accessor}
    (haccess : selector.accessor = .ok accessor) (rest : List Node) :
    ∃ next?, Option.Rel (Cursor.PointsTo s) next? (v.select? accessor) ∧
      (Reduction.follow (reduceNode setting depth) setting depth (some cursor)
        (selector.node :: rest)).outcome s =
          (Reduction.follow (reduceNode setting depth) setting depth next? rest).outcome s := by
  obtain ⟨next?, hadvance, hnext⟩ := h.advance (reduceNode setting depth) setting hfree hdistinct
    accessor
  have haccessor := outcome_accessor? setting selector hdepth s
  rw [haccess] at haccessor
  refine ⟨next?, hnext, ?_⟩
  rw [Reduction.follow, Eval.outcome_bind_ok haccessor]
  exact Eval.outcome_bind_ok hadvance _

theorem Cursor.PointsTo.follow (h : cursor.PointsTo s v) (hfree : v.Every fun _ => False)
    (hdistinct : v.Distinct) (hdepth : v.size ≤ depth) (selectors : List Selector) :
    (Reduction.follow (reduceNode setting depth) setting depth (some cursor)
      (selectors.map Selector.node)).outcome s = ((v.indexed selectors).mapError .error, s) := by
  have hpos : 0 < depth := v.size_pos.trans_le hdepth
  fun_induction Value.indexed v selectors generalizing cursor with
  | case1 v => exact h.finish _ setting hfree hdepth
  | case2 v selector rest error haccess =>
    have haccessor := outcome_accessor? setting selector hpos s
    rw [haccess] at haccessor
    rw [List.map_cons, Reduction.follow]
    exact Eval.outcome_bind_error haccessor _
  | case3 v selector rest accessor haccess child hselect ih =>
    obtain ⟨next?, hnext, hstep⟩ := h.follow_cons setting hfree hdistinct hpos haccess
      (rest.map Selector.node)
    rw [List.map_cons, hstep]
    rw [hselect] at hnext
    cases hnext with
    | some hchild =>
      -- the child needs less depth to be settled than the value
      obtain ⟨step, hstep⟩ := hdistinct.exists_child? hselect
      have hsmaller := Value.size_lt_of_child? hstep
      exact ih hchild (hfree.child? hstep) (hdistinct.child? hstep) (by omega)
  | case4 v selector rest accessor haccess hselect =>
    obtain ⟨next?, hnext, hstep⟩ := h.follow_cons setting hfree hdistinct hpos haccess
      (rest.map Selector.node)
    rw [List.map_cons, hstep]
    rw [hselect] at hnext
    cases hnext
    exact outcome_follow_none _ setting depth _ s

end

section
variable {setting : Setting} {depth : ℕ} {s : State} {v : Value}

theorem outcome_resolveReference_of_found {reduce : Node → Eval Value} {segments : List Node}
    {found : Except Error (Option Value)} {s' : State}
    (hpath : Node.pathText segments ∉ s.resolving)
    (hroom : s.resolving.length < setting.maxDepth)
    (h : (resolveSegments reduce setting depth segments).outcome
      { s with resolving := Node.pathText segments :: s.resolving } = (found.mapError .error, s')) :
    (resolveReference reduce setting depth segments).outcome s =
      ((found.map (·.getD (.node (.reference segments)))).mapError .error,
        { s' with resolving := s'.resolving.tail }) := by
  rw [outcome_resolveReference reduce setting depth hpath hroom, h]
  rcases found with _ | _ <;> rfl

theorem resolveSegments_expression (reduce : Node → Eval Value) {first : Node} (rest : List Node)
    (hfirst : ∀ name, first ≠ .segment name) :
    resolveSegments reduce setting depth (first :: rest) = reduce first >>= fun value =>
      Reduction.follow reduce setting depth
        (if value.isUnresolved then none else some (.value value)) rest := by
  cases first
  case segment name => exact absurd rfl (hfirst name)
  all_goals rfl

theorem origin?_of_unbound {name : String} (hbound : bound? s.scopes name = none)
    (hlocal : name ≠ "local") (hvar : name ≠ "var") (hdata : name ≠ "data")
    (hstored : Table.get? s.document name = some v) :
    origin? s name = some (.slot [.key name]) := by
  have hcontains : Table.contains s.document name = true := by rw [Table.contains, hstored]; rfl
  unfold origin?
  unfold bound? at hbound
  rw [hbound]
  dsimp only
  split
  · exact absurd rfl hlocal
  · exact absurd rfl hvar
  · exact absurd rfl hdata
  · rw [if_pos hcontains]

end
end Reduction

/-- A value without trees that is stored at the top level, where its name leads to. -/
structure StoredAt (s : State) (name : String) (v : Value) : Prop where
  stored : Table.get? s.document name = some v
  free : v.Every fun _ => False
  distinct : v.Distinct
  unbound : bound? s.scopes name = none
  not_local : name ≠ "local"
  not_var : name ≠ "var"
  not_data : name ≠ "data"

/-- A reference that starts with an expression of some value, which is evaluated while the reference
is in progress. -/
structure BeginsWith (setting : Setting) (s : State) (first : Node) (rest : List Node) (v : Value) :
    Prop where
  expression : ∀ name, first ≠ .segment name
  comesTo : ∃ s', Eval.ComesTo (reduceNode setting · first)
    { s with resolving := Node.pathText (first :: rest) :: s.resolving } (.ok v) s'

/-- A reference gives what is found, or itself where nothing is found, or fails. -/
def Finds (setting : Setting) (s : State) (segments : List Node)
    (found : Except Error (Option Value)) : Prop :=
  ∃ s', Eval.ComesTo (reduceNode setting · (.reference segments)) s
    (found.map (·.getD (.node (.reference segments)))) s'

variable {setting : Setting} {s : State} {name : String} {v : Value} {first : Node}

theorem StoredAt.finds (h : StoredAt s name v) (hroom : s.resolving.length < setting.maxDepth)
    (selectors : List Selector)
    (hpath : Node.pathText (.segment name :: selectors.map Selector.node) ∉ s.resolving) :
    Finds setting s (.segment name :: selectors.map Selector.node) (v.indexed selectors) := by
  set segments : List Node := .segment name :: selectors.map Selector.node
  set inside : State := { s with resolving := Node.pathText segments :: s.resolving }
  have horigin : origin? inside name = some (.slot [.key name]) :=
    origin?_of_unbound h.unbound h.not_local h.not_var h.not_data h.stored
  have hpoints : Cursor.PointsTo inside (.slot [.key name]) v :=
    .slot ((Document.slot?_key ..).trans h.stored)
  have hfollow := hpoints.follow setting h.free h.distinct (Nat.le_refl v.size) selectors
  have hsegments : (resolveSegments (reduceNode setting v.size) setting v.size segments).outcome
      inside = ((v.indexed selectors).mapError .error, inside) := by
    rw [outcome_resolveSegments_name, horigin]
    exact hfollow
  exact ⟨s, v.size + 1, outcome_resolveReference_of_found hpath hroom hsegments⟩

theorem BeginsWith.finds {selectors : List Selector}
    (h : BeginsWith setting s first (selectors.map Selector.node) v)
    (hfree : v.Every fun _ => False) (hdistinct : v.Distinct)
    (hroom : s.resolving.length < setting.maxDepth)
    (hpath : Node.pathText (first :: selectors.map Selector.node) ∉ s.resolving) :
    Finds setting s (first :: selectors.map Selector.node) (v.indexed selectors) := by
  set segments : List Node := first :: selectors.map Selector.node
  obtain ⟨s', depth, hfirst⟩ := h.comesTo
  set deep := max depth v.size
  have hdeep : (reduceNode setting deep first).outcome
      { s with resolving := Node.pathText segments :: s.resolving } = (.ok v, s') :=
    (reduceNode_deepens (le_max_left ..) first).ok hfirst
  have hresolved : v.isUnresolved = false := by
    cases v
    case node tree => exact absurd rfl (Value.ne_node_of_free hfree tree)
    all_goals rfl
  have hfollow := (Cursor.PointsTo.value (s := s') v).follow setting hfree hdistinct
    (le_max_right depth v.size) selectors
  have hsegments : (resolveSegments (reduceNode setting deep) setting deep segments).outcome
      { s with resolving := Node.pathText segments :: s.resolving } =
        ((v.indexed selectors).mapError .error, s') := by
    rw [resolveSegments_expression _ _ h.expression, Eval.outcome_bind_ok hdeep, hresolved]
    exact hfollow
  exact ⟨_, deep + 1, outcome_resolveReference_of_found hpath hroom hsegments⟩

theorem Finds.unique {segments : List Node} {found found' : Except Error (Option Value)}
    (h : Finds setting s segments found) (h' : Finds setting s segments found') :
    found.map (·.getD (.node (.reference segments))) =
      found'.map (·.getD (.node (.reference segments))) := by
  obtain ⟨_, h⟩ := h
  obtain ⟨_, h'⟩ := h'
  exact (h.unique (fun hdepth => reduceNode_deepens hdepth _) h').1

theorem finds_of_mem {segments : List Node} (h : Node.pathText segments ∈ s.resolving) :
    Finds setting s segments (.error (.cyclicReference (Node.pathText segments))) :=
  ⟨s, 1, outcome_resolveReference_of_mem (reduceNode setting 0) setting 0 h⟩

theorem Finds.notMem {segments : List Node} {selectors : List Selector}
    (h : Finds setting s segments (v.indexed selectors)) :
    Node.pathText segments ∉ s.resolving := by
  intro hmem
  have hcycle := h.unique (finds_of_mem hmem)
  cases hindexed : v.indexed selectors with
  | ok found =>
    rw [hindexed] at hcycle
    cases hcycle
  | error error =>
    obtain ⟨raw, rfl⟩ := Value.exists_of_indexed_error hindexed
    rw [hindexed] at hcycle
    cases hcycle

/-- Two references that continue alike find the same, the one from an entry of the document and the
other from an expression. -/
def FindAlike (setting : Setting) (s : State) (name : String) (first : Node)
    (selectors : List Selector) (found : Except Error (Option Value)) : Prop :=
  Finds setting s (.segment name :: selectors.map Selector.node) found ∧
    Finds setting s (first :: selectors.map Selector.node) found

/-- Where there is room for a reference, selecting from an entry of the document finds what
selecting from an expression of the same value finds, and what there is in the value, exactly if
neither is in progress. What is found is no tree, so one is left as it is if and only if the other
is. -/
theorem indexing_in_place_iff {selectors : List Selector} (hstored : StoredAt s name v)
    (hbegins : BeginsWith setting s first (selectors.map Selector.node) v)
    (hroom : s.resolving.length < setting.maxDepth) :
    (FindAlike setting s name first selectors (v.indexed selectors) ↔
      Node.pathText (.segment name :: selectors.map Selector.node) ∉ s.resolving ∧
        Node.pathText (first :: selectors.map Selector.node) ∉ s.resolving) ∧
      ∀ w, v.indexed selectors = .ok (some w) → w.Every fun _ => False := by
  refine ⟨⟨fun h => ⟨h.1.notMem, h.2.notMem⟩, fun h => ?_⟩, fun w hw => hstored.free.indexed hw⟩
  exact ⟨hstored.finds hroom selectors h.1,
    hbegins.finds hstored.free hstored.distinct hroom h.2⟩

def five : Value := .map [("a", .number (.ofNat 5))]

def fiveTree : Node := .map [.named "a" [.number "5"] none]

def fiveState (resolving : List String) : State where
  document := [("r", five)]
  resolving := resolving

theorem fiveState_stored (resolving : List String) : StoredAt (fiveState resolving) "r" five where
  stored := rfl
  free := by simp [five]
  distinct := .map (by decide) fun e he => by
    cases List.mem_singleton.mp he
    exact .number _
  unbound := rfl
  not_local := by decide
  not_var := by decide
  not_data := by decide

theorem outcome_fiveTree (setting : Setting) (s : State) :
    (reduceNode setting 1 fiveTree).outcome s = (.ok five, s) := by
  have hread : Number.read? "5" = some (.ofNat 5) := by decide +kernel
  have htable : (structureEach (reduceNode setting 0)
      [.named "a" [.number "5"] none]).table.outcome s = (.ok [("a", .number (.ofNat 5))], s) := by
    rw [Build.outcome_table, structureEach, Build.outcome_bind, outcome_named, structureChildren,
      Node.number, structureOnly, literalValue, hread]
    rfl
  exact Eval.outcome_bind_ok htable _

theorem fiveTree_begins (resolving : List String) (rest : List Node) :
    BeginsWith ⟨[], [], [], 64⟩ (fiveState resolving) fiveTree rest five where
  expression := nofun
  comesTo := ⟨_, 1, outcome_fiveTree _ _⟩

theorem indexing_in_place_iff_half :
    FindAlike ⟨[], [], [], 64⟩ (fiveState ["x"]) "r" fiveTree [.position "0.5"]
      (.ok (some (.number (.ofNat 5)))) := by
  have hread : Number.read? "0.5" = some (.finite false (Number.one / 2)) := by decide +kernel
  have hposition : (Number.finite false (Number.one / 2)).index? = some 0 := by decide +kernel
  have hindexed : five.indexed [.position "0.5"] = .ok (some (.number (.ofNat 5))) := by
    simp [Value.indexed, Selector.accessor, hread, five, Value.select?, hposition]
  rw [← hindexed]
  exact (indexing_in_place_iff (fiveState_stored ["x"]) (fiveTree_begins ["x"] _) (by decide)).1.mpr
    (by decide)

def reentered (segments : List Node) : List Node :=
  [.named "x" [.reference [.segment "r", .segment "a"]] none,
    .named "r" [.call "tick" [] false, .operator .equal, .number "1", .operator .question,
      .map [.named "a" [.array [.reference [.segment "r", .array [.string "a"]],
        .reference segments]] none],
      .operator .colon, fiveTree] none]

/-- A reference in progress is a cycle, also where the entry it starts from has come to a value. -/
theorem not_findAlike :
    (¬ ∀ setting s name v first selectors, StoredAt s name v →
      BeginsWith setting s first (selectors.map Selector.node) v →
        s.resolving.length < setting.maxDepth →
          ∃ found, FindAlike setting s name first selectors found) ∧
      (run tickSetting [] (reentered [.segment "r", .segment "a"])).1 =
        .error (.error (.cyclicReference "r.a")) ∧
        (run tickSetting [] (reentered [fiveTree, .segment "a"])).1 = .ok () := by
  refine ⟨fun h => ?_, by decide +kernel, by decide +kernel⟩
  have hstored := fiveState_stored ["r.a"]
  have hbegins := fiveTree_begins ["r.a"] ([Selector.field "a"].map Selector.node)
  obtain ⟨found, hplace, hvalue⟩ := h _ _ _ _ _ _ hstored hbegins (by decide)
  have hcycle := hplace.unique (finds_of_mem (by decide))
  have hfive := hvalue.unique (hbegins.finds hstored.free hstored.distinct (by decide) (by decide))
  cases found with
  | error error => cases hfive
  | ok found => cases hcycle

end HclEval
