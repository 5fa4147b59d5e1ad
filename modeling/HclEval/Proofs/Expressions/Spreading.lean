import HclEval.Proofs.Depth
import HclEval.Proofs.Expressions.Stillness

/-!
Calls that spread a list into separate arguments. A call looks for references that lead nowhere
among its arguments before the last one is spread, so it does not see those among the elements of
the list, which it would have seen had they been passed one by one.
-/
namespace HclEval

open Reduction

namespace Reduction

section
variable {reduce : Node → Eval Value} {s s' : State}

/-- The values that a call hands to its function, if it does. -/
def handedOver (reduce : Node → Eval Value) (nodes : List Node) (spread : Bool) :
    Eval (Option (List Value)) := do
  let some values ← arguments? reduce nodes | return none
  return if spread then spread? values else some values

def callOn (function : List Value → Eval Value) : Option (List Value) → Eval Value
  | some values => function values
  | none => pure .null

theorem outcome_callWith (call : String → List Value → Eval Value) (name : String)
    (nodes : List Node) (spread : Bool) :
    (callWith call reduce name nodes spread).outcome s =
      (handedOver reduce nodes spread >>= callOn (call name)).outcome s := by
  unfold callWith handedOver
  rw [Eval.outcome_bind, Eval.outcome_bind, Eval.outcome_bind]
  rcases (arguments? reduce nodes).outcome s with ⟨_ | _ | values, s'⟩
  · rfl
  · rfl
  · cases spread with
    | false => rfl
    | true => cases hspread : spread? values <;> simp [hspread, callOn]

/-- One node after the other is evaluated until one is a reference that leads nowhere. -/
inductive MeetsUnresolved (reduce : Node → Eval Value) : List Node → State → Prop
  | here {node : Node} {rest : List Node} {s s' : State} {v : Value}
      (hvalue : (reduce node).outcome s = (.ok v, s')) (hunresolved : v.isUnresolved = true) :
      MeetsUnresolved reduce (node :: rest) s
  | later {node : Node} {rest : List Node} {s s' : State} {v : Value}
      (hvalue : (reduce node).outcome s = (.ok v, s')) (hresolved : v.isUnresolved = false)
      (hrest : MeetsUnresolved reduce rest s') : MeetsUnresolved reduce (node :: rest) s

def andThen (more : Eval (Option (List Value))) : Option (List Value) → Eval (Option (List Value))
  | some values => return (← more).map (values ++ ·)
  | none => pure none

theorem arguments?_append (nodes more : List Node) :
    arguments? reduce (nodes ++ more) =
      arguments? reduce nodes >>= andThen (arguments? reduce more) := by
  induction nodes with
  | nil =>
    simp only [List.nil_append, arguments?, pure_bind, andThen]
    simp
  | cons node rest ih =>
    simp only [List.cons_append, arguments?, ih, bind_assoc]
    refine congrArg (reduce node >>= ·) (funext fun v => ?_)
    cases hv : v.isUnresolved with
    | true => simp [andThen]
    | false =>
      simp only [Bool.false_eq_true, if_false, bind_assoc, pure_bind]
      refine congrArg (arguments? reduce rest >>= ·) (funext fun values? => ?_)
      cases values? with
      | none => simp [andThen]
      | some values => simp [andThen, Function.comp_def]

theorem handedOver_false (nodes : List Node) :
    handedOver reduce nodes false = arguments? reduce nodes := by
  refine (congrArg (arguments? reduce nodes >>= ·) (funext fun values? => ?_)).trans (bind_pure _)
  cases values? <;> rfl

theorem spread?_concat (values items : List Value) :
    spread? (values ++ [.list items]) = some (values ++ items) := by
  simp [spread?]

theorem arguments?_array {setting : Setting} {depth : ℕ} {elements : List Node}
    (hne : elements ≠ []) :
    arguments? (reduceNode setting (depth + 1)) [.array elements] =
      (do return some [.list (← elements.mapM (reduceNode setting depth))]) := by
  have hempty : elements.isEmpty = false := by simpa using hne
  simp [arguments?, reduceNode, reduceStep, hempty, Value.isUnresolved]

theorem handedOver_array {setting : Setting} {depth : ℕ} (nodes : List Node)
    {elements : List Node} (hne : elements ≠ []) :
    handedOver (reduceNode setting (depth + 1)) (nodes ++ [.array elements]) true =
      arguments? (reduceNode setting (depth + 1)) nodes >>=
        andThen (do return some (← elements.mapM (reduceNode setting depth))) := by
  unfold handedOver
  rw [arguments?_append, arguments?_array hne, bind_assoc]
  refine congrArg (arguments? (reduceNode setting (depth + 1)) nodes >>= ·)
    (funext fun values? => ?_)
  cases values? with
  | none => simp [andThen]
  | some values => simp [andThen, spread?_concat]

/-! Elements with and without a look. -/

theorem outcome_arguments?_of_resolved {nodes : List Node} (h : ¬ MeetsUnresolved reduce nodes s) :
    (arguments? reduce nodes).outcome s =
      (do return some (← nodes.mapM reduce) : Eval (Option (List Value))).outcome s := by
  induction nodes generalizing s with
  | nil => rfl
  | cons node rest ih =>
    rw [arguments?, List.mapM_cons]
    simp only [bind_assoc]
    rcases hvalue : (reduce node).outcome s with ⟨e | v, s'⟩
    · rw [Eval.outcome_bind_error hvalue, Eval.outcome_bind_error hvalue]
    · rw [Eval.outcome_bind_ok hvalue, Eval.outcome_bind_ok hvalue]
      have hresolved : v.isUnresolved = false := by
        by_contra hunresolved
        exact h (.here hvalue (by simpa using hunresolved))
      have hrest : ¬ MeetsUnresolved reduce rest s' :=
        fun hrest => h (.later hvalue hresolved hrest)
      simp only [hresolved, Bool.false_eq_true, if_false]
      rw [Eval.outcome_bind, ih hrest, Eval.outcome_bind, Eval.outcome_bind]
      rcases (rest.mapM reduce).outcome s' with ⟨_ | _, _⟩ <;> rfl

theorem MeetsUnresolved.outcome_arguments? {nodes : List Node}
    (h : MeetsUnresolved reduce nodes s) :
    ∃ s', (arguments? reduce nodes).outcome s = (.ok none, s') := by
  induction h with
  | @here _ _ _ s' _ hvalue hunresolved =>
    rw [arguments?, Eval.outcome_bind_ok hvalue]
    exact ⟨s', by simp [hunresolved]⟩
  | later hvalue hresolved _ ih =>
    obtain ⟨s', hrest⟩ := ih
    refine ⟨s', ?_⟩
    rw [arguments?, Eval.outcome_bind_ok hvalue]
    simp only [hresolved, Bool.false_eq_true, if_false]
    rw [Eval.outcome_bind_ok hrest]
    rfl

theorem MeetsUnresolved.exists_mem {nodes : List Node} (h : MeetsUnresolved reduce nodes s)
    {values : List Value} {s' : State}
    (hvalues : (nodes.mapM reduce).outcome s = (.ok values, s')) :
    ∃ v ∈ values, v.isUnresolved = true := by
  induction h generalizing values s' with
  | here hvalue hunresolved =>
    rw [List.mapM_cons, Eval.outcome_bind_ok hvalue] at hvalues
    obtain ⟨more, s₁, -, hvalues⟩ := Eval.outcome_bind_eq_ok.mp hvalues
    cases hvalues
    exact ⟨_, List.mem_cons_self .., hunresolved⟩
  | later hvalue _ _ ih =>
    rw [List.mapM_cons, Eval.outcome_bind_ok hvalue] at hvalues
    obtain ⟨more, s₁, hmore, hvalues⟩ := Eval.outcome_bind_eq_ok.mp hvalues
    cases hvalues
    obtain ⟨v, hmem, hv⟩ := ih hmore
    exact ⟨v, List.mem_cons_of_mem _ hmem, hv⟩

theorem MeetsUnresolved.deepen {setting : Setting} {depth depth' : ℕ} (hdepth : depth ≤ depth')
    {nodes : List Node} {s : State} (h : MeetsUnresolved (reduceNode setting depth) nodes s) :
    MeetsUnresolved (reduceNode setting depth') nodes s := by
  induction h with
  | here hvalue hunresolved =>
    exact .here ((reduceNode_deepens hdepth _).ok hvalue) hunresolved
  | later hvalue hresolved _ ih =>
    exact .later ((reduceNode_deepens hdepth _).ok hvalue) hresolved ih

theorem resolved_of_arguments? {nodes : List Node} {values : List Value}
    (h : (arguments? reduce nodes).outcome s = (.ok (some values), s')) :
    ∀ v ∈ values, v.isUnresolved = false := by
  induction nodes generalizing s values with
  | nil =>
    cases h
    simp
  | cons node rest ih =>
    rw [arguments?] at h
    obtain ⟨v, s₁, -, h⟩ := Eval.outcome_bind_eq_ok.mp h
    cases hv : v.isUnresolved with
    | true =>
      simp only [hv, if_true] at h
      cases h
    | false =>
      simp only [hv, Bool.false_eq_true, if_false] at h
      obtain ⟨more?, s₂, hmore, h⟩ := Eval.outcome_bind_eq_ok.mp h
      cases more? with
      | none => cases h
      | some more =>
        cases h
        exact List.forall_mem_cons.mpr ⟨hv, ih hmore⟩

end

/-! How deep the arguments are evaluated is of no concern. -/

section
variable {setting : Setting} {depth depth' : ℕ} (hdepth : depth ≤ depth')
include hdepth

theorem arguments?_alongside (nodes : List Node) :
    (Coupling.alongside (· ≠ .exhausted)).Sim
      (fun values? _ => ∀ values, values? = some values → ∀ v ∈ values,
        v.Every (Coupling.alongside (· ≠ .exhausted)).results)
      (arguments? (reduceNode setting depth) nodes)
      fun _ => arguments? (reduceNode setting depth') nodes :=
  .arguments?
    (fun tree _ => (reduceNode_alongside hdepth tree).mono fun v _ _ => Value.every_true v)
    fun _ _ => trivial

theorem arguments?_deepens (nodes : List Node) :
    (arguments? (reduceNode setting depth) nodes).Deepens
      (arguments? (reduceNode setting depth') nodes) :=
  .of_alongside (arguments?_alongside hdepth nodes)

theorem handedOver_deepens (nodes : List Node) (spread : Bool) :
    (handedOver (reduceNode setting depth) nodes spread).Deepens
      (handedOver (reduceNode setting depth') nodes spread) := by
  have hsim : (Coupling.alongside (· ≠ .exhausted)).Sim (fun _ _ => True)
      (handedOver (reduceNode setting depth) nodes spread)
      fun _ => handedOver (reduceNode setting depth') nodes spread := by
    refine (arguments?_alongside hdepth nodes).bind fun values? s t _ hst => ?_
    cases values? <;> exact .pure hst trivial
  exact .of_alongside hsim

end

/-- What a call hands over that is passed the elements of a list. -/
def passed (setting : Setting) (arguments elements : List Node) (depth : ℕ) :
    Eval (Option (List Value)) :=
  handedOver (reduceNode setting depth) (arguments ++ elements) false

/-- What a call hands over that spreads the list. -/
def spreadOut (setting : Setting) (arguments elements : List Node) (depth : ℕ) :
    Eval (Option (List Value)) :=
  handedOver (reduceNode setting depth) (arguments ++ [.array elements]) true

/-- Once the arguments before them are evaluated, one of the elements comes to a reference that
leads nowhere. -/
def UnresolvedElement (setting : Setting) (arguments elements : List Node) (s : State) : Prop :=
  ∃ depth values s', (arguments? (reduceNode setting depth) arguments).outcome s =
      (.ok (some values), s') ∧
    MeetsUnresolved (reduceNode setting depth) elements s'

section
variable {setting : Setting} {arguments elements : List Node} {s s' : State}

theorem spreadOut_deepens {depth depth' : ℕ} (hdepth : depth ≤ depth') :
    (spreadOut setting arguments elements depth).Deepens
      (spreadOut setting arguments elements depth') := handedOver_deepens hdepth _ _

theorem passed_eq (depth : ℕ) : passed setting arguments elements depth =
    arguments? (reduceNode setting depth) arguments >>=
      andThen (arguments? (reduceNode setting depth) elements) := by
  rw [passed, handedOver_false, arguments?_append]

theorem spreadOut_eq (hne : elements ≠ []) (depth : ℕ) :
    spreadOut setting arguments elements (depth + 1) =
      arguments? (reduceNode setting (depth + 1)) arguments >>=
        andThen (do return some (← elements.mapM (reduceNode setting depth))) :=
  handedOver_array arguments hne

theorem outcome_spreadOut (hne : elements ≠ []) {depth : ℕ} {r : Except Stop (Option (List Value))}
    (harguments : (arguments? (reduceNode setting depth) arguments).outcome s = (r, s'))
    (hdeep : r ≠ .error .exhausted) (h : ¬ UnresolvedElement setting arguments elements s) :
    (spreadOut setting arguments elements (depth + 1)).outcome s =
      (passed setting arguments elements depth).outcome s := by
  have hdeeper := arguments?_deepens (Nat.le_succ depth) arguments _ _ _ harguments hdeep
  rw [passed_eq, spreadOut_eq hne, Eval.outcome_bind, Eval.outcome_bind, harguments, hdeeper]
  rcases r with e | _ | values
  · rfl
  · rfl
  · have hmeets : ¬ MeetsUnresolved (reduceNode setting depth) elements s' :=
      fun hmeets => h ⟨depth, values, s', harguments, hmeets⟩
    simp only [andThen, Eval.outcome_bind, outcome_arguments?_of_resolved hmeets]

end

end Reduction

open Eval

section
variable {setting : Setting} {arguments elements : List Node} {s s' : State}

theorem exists_arguments_of_handedOver {reduce : Node → Eval Value} {more : List Node}
    {spread : Bool} {r : Except Error (Option (List Value))}
    (h : (handedOver reduce (arguments ++ more) spread).outcome s = (r.mapError Stop.error, s')) :
    ∃ r' s₁, (arguments? reduce arguments).outcome s = (r', s₁) ∧ r' ≠ .error .exhausted := by
  refine ⟨_, _, rfl, fun hdeep => ?_⟩
  have harguments : (arguments? reduce arguments).outcome s =
      (.error .exhausted, ((arguments? reduce arguments).outcome s).2) := Prod.ext hdeep rfl
  rw [handedOver, arguments?_append, bind_assoc, Eval.outcome_bind_error harguments] at h
  exact mapError_ne_exhausted r (congrArg Prod.fst h).symm

theorem comesTo_spreadOut_iff (hne : elements ≠ [])
    (h : ¬ UnresolvedElement setting arguments elements s)
    {r : Except Error (Option (List Value))} :
    ComesTo (passed setting arguments elements) s r s' ↔
      ComesTo (spreadOut setting arguments elements) s r s' := by
  constructor
  · rintro ⟨depth, hpassed⟩
    obtain ⟨r', s₁, harguments, hdeep⟩ := exists_arguments_of_handedOver hpassed
    exact ⟨depth + 1, (outcome_spreadOut hne harguments hdeep h).trans hpassed⟩
  · rintro ⟨depth, hspread⟩
    obtain ⟨r', s₁, harguments, hdeep⟩ := exists_arguments_of_handedOver hspread
    have hdeeper := spreadOut_deepens (Nat.le_succ depth) _ _ _ hspread (mapError_ne_exhausted r)
    exact ⟨depth, (outcome_spreadOut hne harguments hdeep h).symm.trans hdeeper⟩

theorem Reduction.UnresolvedElement.deepen (h : UnresolvedElement setting arguments elements s) :
    ∃ depth, ∀ depth' ≥ depth, ∃ values s',
      (arguments? (reduceNode setting depth') arguments).outcome s = (.ok (some values), s') ∧
        MeetsUnresolved (reduceNode setting depth') elements s' := by
  obtain ⟨depth, values, s', harguments, hmeets⟩ := h
  refine ⟨depth, fun depth' hdepth => ⟨values, s', ?_, hmeets.deepen hdepth⟩⟩
  exact (arguments?_deepens hdepth _).ok harguments

theorem Reduction.UnresolvedElement.passed_none
    (h : UnresolvedElement setting arguments elements s) :
    ∃ s', ComesTo (passed setting arguments elements) s (.ok none) s' := by
  obtain ⟨depth, values, s₁, harguments, hmeets⟩ := h
  obtain ⟨s', hnone⟩ := hmeets.outcome_arguments?
  refine ⟨s', depth, ?_⟩
  rw [passed_eq, Eval.outcome_bind_ok harguments, andThen, Eval.outcome_bind_ok hnone]
  rfl

theorem Reduction.UnresolvedElement.exists_handedOver
    (h : UnresolvedElement setting arguments elements s) (hne : elements ≠ [])
    {values? : Option (List Value)}
    (hspread : ComesTo (spreadOut setting arguments elements) s (.ok values?) s') :
    ∃ values, values? = some values ∧ ∃ v ∈ values, v.isUnresolved = true := by
  -- deep enough for both, with the elements one level below the call
  obtain ⟨depth, hdepth⟩ := h.deepen
  obtain ⟨depth', hspread⟩ := hspread
  obtain ⟨first, s₁, harguments, hmeets⟩ := hdepth (max depth depth') (le_max_left ..)
  have hdeeper := (spreadOut_deepens (show depth' ≤ max depth depth' + 1 by omega)).ok hspread
  have harguments' := (arguments?_deepens (Nat.le_succ _) _).ok harguments
  rw [spreadOut_eq hne, Eval.outcome_bind_ok harguments', andThen] at hdeeper
  obtain ⟨more?, s₂, hmore, hdeeper⟩ := Eval.outcome_bind_eq_ok.mp hdeeper
  obtain ⟨more, s₃, hvalues, hmore⟩ := Eval.outcome_bind_eq_ok.mp hmore
  cases hmore
  cases hdeeper
  obtain ⟨v, hmem, hv⟩ := hmeets.exists_mem hvalues
  exact ⟨_, rfl, v, List.mem_append_right _ hmem, hv⟩

theorem resolved_of_passed {values : List Value}
    (h : ComesTo (passed setting arguments elements) s (.ok (some values)) s') :
    ∀ v ∈ values, v.isUnresolved = false := by
  obtain ⟨depth, h⟩ := h
  rw [passed, handedOver_false] at h
  exact resolved_of_arguments? h

end

theorem comesTo_call_iff {setting : Setting} {name : String} {nodes : List Node} {spread : Bool}
    {s s' : State} {r : Except Error Value} :
    ComesTo (reduceNode setting · (.call name nodes spread)) s r s' ↔
      ComesTo (fun depth => handedOver (reduceNode setting depth) nodes spread >>=
        callOn (invoke setting name)) s r s' := by
  have hcall (depth : ℕ) : (reduceNode setting (depth + 1) (.call name nodes spread)).outcome s =
      (handedOver (reduceNode setting depth) nodes spread >>=
        callOn (invoke setting name)).outcome s := by
    rw [reduceNode, reduceStep_eq, stepWith, outcome_callWith]
  constructor
  · rintro ⟨_ | depth, h⟩
    · cases r <;> cases h
    · exact ⟨depth, (hcall depth).symm.trans h⟩
  · rintro ⟨depth, h⟩
    exact ⟨depth + 1, (hcall depth).trans h⟩

/-- Spreading a list hands over what passing its elements does if and only if none of them comes to
a reference that leads nowhere, and then calls come to the same. Otherwise that is handed over; a
call that is passed the elements never does so. -/
theorem spreading_agrees_iff (setting : Setting) (arguments : List Node) {elements : List Node}
    (hne : elements ≠ []) (s : State) :
    ((∀ r s', ComesTo (passed setting arguments elements) s r s' ↔
        ComesTo (spreadOut setting arguments elements) s r s') ↔
      ¬ UnresolvedElement setting arguments elements s) ∧
    (¬ UnresolvedElement setting arguments elements s → ∀ name r s',
      ComesTo (reduceNode setting · (.call name (arguments ++ elements) false)) s r s' ↔
        ComesTo (reduceNode setting · (.call name (arguments ++ [.array elements]) true)) s r s') ∧
    (∀ values s', ComesTo (passed setting arguments elements) s (.ok (some values)) s' →
      ∀ v ∈ values, v.isUnresolved = false) ∧
    (∀ values s', ComesTo (spreadOut setting arguments elements) s (.ok (some values)) s' →
      ((∃ v ∈ values, v.isUnresolved = true) ↔ UnresolvedElement setting arguments elements s)) ∧
    ∀ name r s',
      (ComesTo (reduceNode setting · (.call name (arguments ++ elements) false)) s r s' ↔
        ComesTo (fun depth => passed setting arguments elements depth >>=
          callOn (invoke setting name)) s r s') ∧
      (ComesTo (reduceNode setting · (.call name (arguments ++ [.array elements]) true)) s r s' ↔
        ComesTo (fun depth => spreadOut setting arguments elements depth >>=
          callOn (invoke setting name)) s r s') := by
  refine ⟨⟨fun hagree h => ?_, fun h r s' => comesTo_spreadOut_iff hne h⟩, fun h name r s' => ?_,
    fun values s' => resolved_of_passed, fun values s' hspread => ⟨fun hexists => ?_, fun h => ?_⟩,
    fun name r s' => ⟨comesTo_call_iff, comesTo_call_iff⟩⟩
  · obtain ⟨s', hpassed⟩ := h.passed_none
    obtain ⟨values, hnone, -⟩ := h.exists_handedOver hne ((hagree _ _).mp hpassed)
    cases hnone
  · rw [comesTo_call_iff, comesTo_call_iff]
    exact ⟨.bind (comesTo_spreadOut_iff hne h).mp, .bind (comesTo_spreadOut_iff hne h).mpr⟩
  · by_contra h
    obtain ⟨v, hmem, hv⟩ := hexists
    have hresolved := resolved_of_passed ((comesTo_spreadOut_iff hne h).mpr hspread) v hmem
    rw [hv] at hresolved
    cases hresolved
  · obtain ⟨_, hvalues, hexists⟩ := h.exists_handedOver hne hspread
    cases hvalues
    exact hexists

def argumentsFunction : Table Function := [("f", fun _ values => .ok (.list values))]

/-- `f("a", ["b", "c"]...)` -/
theorem spreading_agrees_iff_texts :
    ComesTo (reduceNode ⟨argumentsFunction, [], [], 8⟩ ·
        (.call "f" [.string "a", .array [.string "b", .string "c"]] true)) {}
      (.ok (.list [.string "a", .string "b", .string "c"]))
      { calls := [.function "f" [.string "a", .string "b", .string "c"]] } := by
  have hresolved : ¬ UnresolvedElement ⟨argumentsFunction, [], [], 8⟩ [.string "a"]
      [.string "b", .string "c"] {} := by
    rintro ⟨_ | depth, values, s', harguments, hmeets⟩
    · cases harguments
    · rcases hmeets with ⟨⟨⟩, ⟨⟩⟩ | ⟨⟨⟩, -, ⟨⟨⟩, ⟨⟩⟩ | ⟨⟨⟩, -, ⟨⟩⟩⟩
  exact ((spreading_agrees_iff ⟨argumentsFunction, [], [], 8⟩ [.string "a"] (by simp) {}).2.1
    hresolved "f" _ _).mp ⟨2, rfl⟩

/-- `f(missing)` is `null`, and yet `f([missing]...)` calls the function, with the reference. -/
theorem not_spreading_agrees :
    (¬ ∀ (setting : Setting) (name : String) (arguments elements : List Node) (s : State),
      setting.HistoryFree → elements ≠ [] → ∀ r,
        (∃ s', ComesTo (reduceNode setting · (.call name (arguments ++ elements) false)) s r s') ↔
        ∃ s', ComesTo (reduceNode setting · (.call name (arguments ++ [.array elements]) true)) s r
          s') ∧
      ComesTo (reduceNode ⟨argumentsFunction, [], [], 8⟩ ·
        (.call "f" [.array [.reference [.segment "missing"]]] true)) {}
        (.ok (.list [.node (.reference [.segment "missing"])]))
        { calls := [.function "f" [.node (.reference [.segment "missing"])]] } := by
  have hspread : ComesTo (reduceNode ⟨argumentsFunction, [], [], 8⟩ ·
      (.call "f" [.array [.reference [.segment "missing"]]] true)) {}
      (.ok (.list [.node (.reference [.segment "missing"])]))
      { calls := [.function "f" [.node (.reference [.segment "missing"])]] } := ⟨3, rfl⟩
  have hpassed : ComesTo (reduceNode ⟨argumentsFunction, [], [], 8⟩ ·
      (.call "f" [.reference [.segment "missing"]] false)) {} (.ok .null) {} := ⟨2, rfl⟩
  have hpure : Setting.HistoryFree ⟨argumentsFunction, [], [], 8⟩ := by
    intro name f hf calls values
    obtain ⟨-, rfl⟩ : "f" = name ∧ _ = f := by simpa [argumentsFunction, Table.get?] using hf
    rfl
  refine ⟨fun h => ?_, hspread⟩
  have hagree := h _ "f" [] [.reference [.segment "missing"]] {} hpure (by simp) (.ok .null)
  obtain ⟨s', hnull⟩ := hagree.mp ⟨_, hpassed⟩
  obtain ⟨hsame, -⟩ := hnull.unique (fun hdepth => reduceNode_deepens hdepth _) hspread
  cases hsame

end HclEval
