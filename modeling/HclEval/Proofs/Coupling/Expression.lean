import HclEval.Proofs.Coupling.Basic
import HclEval.Reduction.Expression

/-!
Expressions side by side: if the trees of an expression are coupled, so are flat expressions,
calls and `for` expressions. What the coupling has to say about functions and about scopes is
asked for where it is needed.
-/
namespace HclEval

namespace Reduction

variable {p : Node → Prop}

theorem every_applyOrder {operator : Operator} {left right : Value} (hl : left.Every p) :
    (applyOrder operator left right).Every p := by
  unfold applyOrder
  split
  · split <;> simp
  · exact hl

theorem every_applyPlus {left right : Value} (hl : left.Every p) (hr : right.Every p) :
    (applyPlus left right).Every p := by
  unfold applyPlus
  split
  · split <;> simp
  · simp
  · exact hr
  · exact hl

theorem every_applyMinus {left right : Value} (hl : left.Every p) :
    (applyMinus left right).Every p := by
  unfold applyMinus
  split
  · simp
  · simp
  · exact hl

theorem every_applyArithmetic {f : Number → Number → Number} {left right : Value}
    (hl : left.Every p) : (applyArithmetic f left right).Every p := by
  unfold applyArithmetic
  split
  · simp
  · exact hl

theorem every_apply {operator : Operator} {left right : Value} (hl : left.Every p)
    (hr : right.Every p) : (apply operator left right).Every p := by
  cases operator
  case plus => exact every_applyPlus hl hr
  case minus => exact every_applyMinus hl
  case greater | greaterEqual | less | lessEqual => exact every_applyOrder hl
  case multiply | divide | modulo => exact every_applyArithmetic hl
  case equal | notEqual => simp [apply]
  all_goals exact hl

theorem every_applyUnary {operator : Operator} {operand : Value} (h : operand.Every p) :
    (applyUnary operator operand).Every p := by
  unfold applyUnary
  split
  · simp
  · exact every_apply Value.every_null h

theorem mem_of_mem_skipBranch {depth : Nat} {nodes : List Node} {node : Node}
    (h : node ∈ skipBranch depth nodes) : node ∈ nodes := by
  fun_induction skipBranch depth nodes <;> simp_all

theorem mem_of_mem_afterOperand {nodes : List Node} {node : Node}
    (h : node ∈ afterOperand nodes) : node ∈ nodes := by
  fun_induction afterOperand nodes <;> simp_all

theorem every_spread? {values values' : List Value} (h : spread? values = some values')
    (hv : ∀ v ∈ values, v.Every p) : ∀ v ∈ values', v.Every p := by
  unfold spread? at h
  cases hlast : values.getLast? with
  | none => simp [hlast] at h
  | some last =>
    have hmem : last ∈ values := List.mem_of_getLast? hlast
    cases last <;> simp [hlast] at h
    case list items =>
      subst h
      have hitems : ∀ v ∈ items, v.Every p := by simpa using hv _ hmem
      intro v hmem'
      rcases List.mem_append.1 hmem' with hleft | hright
      · exact hv v (List.dropLast_subset _ hleft)
      · exact hitems v hright

theorem every_items? {value : Value} {items : List (Value × Value)} (h : items? value = some items)
    (hv : value.Every p) : ∀ item ∈ items, item.1.Every p ∧ item.2.Every p := by
  cases value <;> simp only [items?, reduceCtorEq, Option.some.injEq] at h
  case list values =>
    subst h
    have hvalues : ∀ v ∈ values, v.Every p := by simpa using hv
    intro item hitem
    obtain ⟨⟨v, i⟩, hmem, rfl⟩ := List.mem_map.1 hitem
    exact ⟨by simp [Value.ofNat], hvalues v (List.fst_mem_of_mem_zipIdx hmem)⟩
  case map entries =>
    subst h
    have hentries := (Value.every_map entries).1 hv
    intro item hitem
    obtain ⟨⟨key, v⟩, hmem, rfl⟩ := List.mem_map.1 hitem
    exact ⟨by simp, hentries _ hmem⟩

theorem every_bindings {keyVariable : Option String} {valueVariable : String} {key value : Value}
    (hk : key.Every p) (hv : value.Every p) :
    (Value.map (bindings keyVariable valueVariable key value)).Every p := by
  unfold bindings
  refine Value.every_insert ?_ hv
  cases keyVariable with
  | none => simp
  | some name => simpa using hk

theorem every_groupEntries {entries : List (String × Value)}
    (h : ∀ e ∈ entries, e.2.Every p) : (Value.map (groupEntries entries)).Every p := by
  unfold groupEntries
  refine List.foldlRecOn (motive := fun table => (Value.map table).Every p) entries _ (by simp) ?_
  intro table ht e he
  have hvalue := h e he
  obtain ⟨key, value⟩ := e
  dsimp only
  split
  · rename_i values hvalues
    have hold : (Value.list values).Every p :=
      (Value.every_map _).1 ht _ (Table.mem_of_get? hvalues)
    refine Value.every_insert ht ((Value.every_list _).2 fun v hv => ?_)
    rcases List.mem_append.1 hv with hv | hv
    · exact (Value.every_list _).1 hold v hv
    · obtain rfl := List.mem_singleton.1 hv
      exact hvalue
  · exact ht
  · exact Value.every_insert ht (by simpa using hvalue)

def callWith (invoke : String → List Value → Eval Value) (reduce : Node → Eval Value)
    (name : String) (nodes : List Node) (spread : Bool) : Eval Value := do
  let some values ← arguments? reduce nodes | return .null
  let some values := if spread then spread? values else some values | return .null
  invoke name values

def invoke (setting : Setting) (name : String) (values : List Value) : Eval Value := do
  let some function := setting.functions.get? name | return .null
  let before := (← get).calls
  Eval.record (.function name values)
  match function before values with
  | .ok value => pure value
  | .error cause => Eval.fail (.functionFailed name cause)

def functionResult (name : String) : Except String Value → Except Stop Value
  | .ok value => .ok value
  | .error cause => .error (.error (.functionFailed name cause))

theorem ok_of_functionResult {name : String} {r : Except String Value} {v : Value}
    (h : functionResult name r = .ok v) : r = .ok v := by
  cases r with
  | ok w => cases h; rfl
  | error cause => cases h

theorem invoke_of_none {setting : Setting} {name : String}
    (hf : setting.functions.get? name = none) (values : List Value) :
    invoke setting name values = pure .null := by
  unfold invoke
  rw [hf]

theorem outcome_invoke {setting : Setting} {name : String} {f : Function}
    (hf : setting.functions.get? name = some f) (values : List Value) (s : State) :
    (invoke setting name values).outcome s =
      (functionResult name (f s.calls values),
        { s with calls := s.calls ++ [.function name values] }) := by
  unfold invoke
  rw [hf]
  change (match f s.calls values with
    | .ok value => pure value
    | .error cause => Eval.fail (.functionFailed name cause) : Eval Value).outcome _ = _
  cases f s.calls values <;> rfl

end Reduction

namespace Coupling

open Reduction

variable {C : Coupling} {reduce : Node → Eval Value} {other : ℕ → Node → Eval Value}

protected theorem Sim.mapM {α β : Type} {post : β → Prop} {f : α → Eval β} {g : ℕ → α → Eval β}
    {xs : List α} (h : ∀ x ∈ xs, C.Sim (fun y _ => post y) (f x) fun i => g i x) :
    C.Sim (fun ys _ => ∀ y ∈ ys, post y) (xs.mapM f) fun i => xs.mapM (g i) := by
  induction xs with
  | nil =>
    simp only [List.mapM_nil]
    exact .pure (by simp)
  | cons x rest ih =>
    simp only [List.mapM_cons]
    simp only [List.forall_mem_cons] at h
    refine h.1.bind fun y s t hy hst => ?_
    refine (ih h.2).map (fun ys s hys => ?_) s t hst
    exact List.forall_mem_cons.2 ⟨hy, hys⟩

section
variable (h : ∀ tree, C.trees tree → C.Sim C.Result (reduce tree) fun i => other i tree)
include h

protected theorem Sim.operand {nodes : List Node} (hn : ∀ node ∈ nodes, C.trees node) :
    C.Sim C.Result (operand reduce nodes) fun i => operand (other i) nodes := by
  induction nodes with
  | nil => exact .pure fun _ => by simp
  | cons node rest ih =>
    simp only [List.forall_mem_cons] at hn
    simp only [operand]
    split
    · exact (ih hn.2).map fun v _ hv => every_applyUnary hv
    · exact h node hn.1

protected theorem Sim.evaluateFrom {result : Value} {nodes : List Node}
    (hn : ∀ node ∈ nodes, C.trees node) (hr : result.Every C.results) :
    C.Sim C.Result (evaluateFrom reduce result nodes)
      fun i => evaluateFrom (other i) result nodes := by
  fun_induction evaluateFrom reduce result nodes
  all_goals
    try simp only [List.forall_mem_cons] at hn
  case case1 =>
    simp only [evaluateFrom]
    exact .pure fun _ => hr
  case case2 =>
    simp only [evaluateFrom]
    exact .pure fun _ => hr
  case case3 htruthy ih =>
    simp only [evaluateFrom, htruthy, if_true]
    exact ih hn.2 Value.every_null
  case case4 htruthy ih =>
    simp only [evaluateFrom, htruthy]
    exact ih (fun node hmem => hn.2 node (mem_of_mem_skipBranch hmem)) Value.every_null
  case case5 rest first second =>
    simp only [evaluateFrom]
    have hleft : ∀ node ∈ rest.takeWhile (!endsLogical ·), C.trees node :=
      fun node hmem => hn.2 node ((List.takeWhile_sublist _).subset hmem)
    have hright : ∀ node ∈ rest.dropWhile (!endsLogical ·), C.trees node :=
      fun node hmem => hn.2 node ((List.dropWhile_sublist _).subset hmem)
    exact (first hleft Value.every_null).bind
      fun right s t _ => second right hright (by simp) s t
  case case6 rest first second =>
    simp only [evaluateFrom]
    have hleft : ∀ node ∈ rest.takeWhile (!endsLogical ·), C.trees node :=
      fun node hmem => hn.2 node ((List.takeWhile_sublist _).subset hmem)
    have hright : ∀ node ∈ rest.dropWhile (!endsLogical ·), C.trees node :=
      fun node hmem => hn.2 node ((List.dropWhile_sublist _).subset hmem)
    exact (first hleft Value.every_null).bind
      fun right s t _ => second right hright (by simp) s t
  case case7 ih =>
    simp only [evaluateFrom]
    have hafter := fun node hmem => hn.2 node (mem_of_mem_afterOperand hmem)
    exact (Sim.operand h hn.2).bind fun right s t _ => ih right hafter (by simp) s t
  case case8 ih =>
    simp only [evaluateFrom]
    have hafter := fun node hmem => hn.2 node (mem_of_mem_afterOperand hmem)
    exact (Sim.operand h hn.2).bind
      fun right s t hright => ih right hafter (every_apply hr hright) s t
  case case9 ih =>
    simp only [evaluateFrom]
    exact (h _ hn.1).bind fun value s t hvalue => ih value hn.2 hvalue s t

protected theorem Sim.evaluate {nodes : List Node} (hn : ∀ node ∈ nodes, C.trees node) :
    C.Sim C.Result (evaluate reduce nodes) fun i => evaluate (other i) nodes :=
  Sim.evaluateFrom h hn Value.every_null

protected theorem Sim.arguments? {nodes : List Node} (hn : ∀ node ∈ nodes, C.trees node) :
    C.Sim (fun values? _ => ∀ values, values? = some values → ∀ v ∈ values, v.Every C.results)
      (arguments? reduce nodes) fun i => arguments? (other i) nodes := by
  induction nodes with
  | nil => exact .pure (by simp)
  | cons node rest ih =>
    simp only [List.forall_mem_cons] at hn
    simp only [Reduction.arguments?]
    refine (h node hn.1).bind fun value s t hvalue hst => ?_
    split
    · exact .pure hst (by simp)
    · refine ((ih hn.2).map fun values? s hvalues => ?_) s t hst
      intro values hmap
      obtain ⟨values', rfl, rfl⟩ := Option.map_eq_some_iff.1 hmap
      exact List.forall_mem_cons.2 ⟨hvalue, hvalues values' rfl⟩

protected theorem Sim.holds {condition : Option Node} (hc : ∀ node ∈ condition, C.trees node) :
    C.Sim (fun _ _ => True) (holds reduce condition) fun i => holds (other i) condition := by
  cases condition with
  | none => exact .pure (by simp)
  | some node => exact (h node (hc node rfl)).map (by simp)

protected theorem Sim.listItem {value : Node} {condition : Option Node} (hv : C.trees value)
    (hc : ∀ node ∈ condition, C.trees node) :
    C.Sim (fun v? _ => ∀ v, v? = some v → v.Every C.results) (listItem reduce value condition)
      fun i => listItem (other i) value condition := by
  refine (Sim.holds h hc).bind fun b s t _ hst => ?_
  cases b with
  | false => exact .pure hst (by simp)
  | true =>
    refine ((h value hv).map fun v s hresult => ?_) s t hst
    rintro _ ⟨⟩
    exact hresult

protected theorem Sim.objectItem {key value : Node} {condition : Option Node} (hk : C.trees key)
    (hv : C.trees value) (hc : ∀ node ∈ condition, C.trees node) :
    C.Sim (fun e? _ => ∀ e, e? = some e → e.2.Every C.results)
      (objectItem reduce key value condition)
      fun i => objectItem (other i) key value condition := by
  refine (Sim.holds h hc).bind fun b s t _ hst => ?_
  cases b with
  | false => exact .pure hst (by simp)
  | true =>
    refine ((h key hk).bind fun k s t _ hst => ?_) s t hst
    cases hkey : k.keyText? with
    | none => exact .pure hst (by simp)
    | some text =>
      refine ((h value hv).map fun v s hresult => ?_) s t hst
      rintro _ ⟨⟩
      exact hresult

protected theorem Sim.callWith {call : String → List Value → Eval Value}
    {call' : ℕ → String → List Value → Eval Value}
    (hcall : ∀ name values, (∀ v ∈ values, v.Every C.results) →
      C.Sim C.Result (call name values) fun i => call' i name values)
    {nodes : List Node} (hn : ∀ node ∈ nodes, C.trees node) (name : String) (spread : Bool) :
    C.Sim C.Result (callWith call reduce name nodes spread)
      fun i => callWith (call' i) (other i) name nodes spread := by
  unfold callWith
  refine (Sim.arguments? h hn).bind fun values? s t hvalues hst => ?_
  cases values? with
  | none => exact .pure hst (by simp)
  | some values =>
    have hevery := hvalues values rfl
    cases spread with
    | false => exact hcall name values hevery s t hst
    | true =>
      dsimp only [if_true]
      cases hspread : spread? values with
      | none => exact .pure hst (by simp)
      | some values' => exact hcall name values' (every_spread? hspread hevery) s t hst

protected theorem Sim.comprehend (hscope : C.Scoped) {collection value : Node}
    {key condition : Option Node} (hcollection : C.trees collection)
    (hkey : ∀ node ∈ key, C.trees node) (hvalue : C.trees value)
    (hcondition : ∀ node ∈ condition, C.trees node) (keyVariable : Option String)
    (valueVariable : String) (grouping : Bool) :
    C.Sim C.Result
      (comprehend reduce keyVariable valueVariable collection key value condition grouping)
      fun i => comprehend (other i) keyVariable valueVariable collection key value condition
        grouping := by
  unfold comprehend
  refine (h collection hcollection).bind fun v s t hv hst => ?_
  cases hitems : items? v with
  | none => exact .pure hst (by simp)
  | some items =>
    have hevery := every_items? hitems hv
    have inScope {α : Type} {post : α → Prop} {a : Eval α} {b : ℕ → Eval α}
        (hab : C.Sim (fun x _ => post x) a b) : ∀ item ∈ items, C.Sim (fun x _ => post x)
          (Eval.withScope (bindings keyVariable valueVariable item.1 item.2) a)
          fun i => Eval.withScope (bindings keyVariable valueVariable item.1 item.2) (b i) :=
      fun item hmem =>
        hscope post (every_bindings (hevery item hmem).1 (hevery item hmem).2) hab
    cases key with
    | none =>
      have rounds := Sim.mapM (inScope (Sim.listItem h hvalue hcondition))
      refine (rounds.map fun values s hvalues => ?_) s t hst
      refine (Value.every_list _).2 fun u hu => ?_
      obtain ⟨u?, hmem, hu⟩ := List.mem_filterMap.1 hu
      exact hvalues u? hmem u hu
    | some keyNode =>
      have rounds := Sim.mapM (inScope (Sim.objectItem h (hkey _ rfl) hvalue hcondition))
      refine (rounds.map fun entries s hentries => ?_) s t hst
      have hall : ∀ e ∈ entries.filterMap id, e.2.Every C.results := fun e he => by
        obtain ⟨e?, hmem, he⟩ := List.mem_filterMap.1 he
        exact hentries e? hmem e he
      cases grouping with
      | true => exact every_groupEntries hall
      | false => exact Value.every_merge (by simp) ((Value.every_map _).2 hall)

end

end Coupling
end HclEval
