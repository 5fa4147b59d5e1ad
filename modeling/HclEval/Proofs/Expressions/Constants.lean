import HclEval.Proofs.Expressions.Stillness

/-!
Trees that refer to nothing are constants. Evaluated as deep as they are large they come to the same
value or the same error in every state, whatever variables, lookups and limit there are, and leave
nothing behind but calls of functions. The evaluations are taken as a family, one for each setting
and depth, so that the end they share is named before any of them is chosen.
-/
namespace HclEval

open Reduction

namespace Node

theorem size_le_sizeAll {node : Node} {nodes : List Node} (h : node ∈ nodes) :
    node.size ≤ sizeAll nodes := by
  induction nodes with
  | nil => cases h
  | cons first rest ih =>
    rw [sizeAll]
    rcases List.mem_cons.mp h with rfl | h
    · exact Nat.le_add_right ..
    · exact (ih h).trans (Nat.le_add_left ..)

theorem size_pos (node : Node) : 0 < node.size := by
  cases node <;> simp [size]

theorem size_lt_of_mem_parts {node part : Node} (h : part ∈ node.parts) :
    part.size < node.size := by
  cases node <;> simp only [parts, List.mem_cons, List.mem_append, Option.mem_toList,
    List.not_mem_nil] at h <;> rw [size]
  case keyed name children position =>
    rcases h with rfl | h
    · omega
    · have := size_le_sizeAll h
      omega
  case comprehension collection key value condition grouping =>
    rcases h with rfl | rfl | h | h
    · omega
    · omega
    · rw [h, sizeOption]
      omega
    · rw [h, sizeOption]
      omega
  all_goals
    have := size_le_sizeAll h
    omega

end Node

/-- Functions that answer by their arguments alone, and make no syntax of arguments without any. -/
structure PureFunctions (functions : Table Function) : Prop where
  history : ∀ {name f}, functions.get? name = some f →
    ∀ calls values, f calls values = f [] values
  free : ∀ {name f values v}, functions.get? name = some f →
    (∀ u ∈ values, u.Every fun _ => False) → f [] values = .ok v → v.Every fun _ => False

/-- Evaluations that all come to the same result as asked, or to the same error, from every state,
and only call functions. -/
def Eval.Constant {ι α : Type} (post : α → Prop) (a : ι → Eval α) : Prop :=
  ∃ (r : Except Error α) (made : List Call), OnlyFunctions made ∧ (∀ x, r = .ok x → post x) ∧
    ∀ i s, (a i).outcome s = (r.mapError Stop.error, s.after made)

def Reduction.Build.Constant {ι : Type} (p : Node → Prop) (a : ι → Build Unit) : Prop :=
  ∀ table, (Value.map table).Staged p p →
    ∃ (r : Except Error Unit) (table' : Table Value) (made : List Call), OnlyFunctions made ∧
      (Value.map table').Staged p p ∧
        ∀ i s, (a i).outcome table s = ((r.mapError Stop.error, table'), s.after made)

namespace Eval.Constant

variable {ι α β γ : Type} {post : α → Prop} {post' : β → Prop}

theorem of_outcome {a : ι → Eval α} {r : Except Error α} (hr : ∀ x, r = .ok x → post x)
    (ha : ∀ i s, (a i).outcome s = (r.mapError Stop.error, s)) : Constant post a :=
  ⟨r, [], nofun, hr, fun i s => by rw [ha, State.after_nil]⟩

protected theorem pure {x : α} (hx : post x) : Constant post fun _ : ι => (pure x : Eval α) :=
  .of_outcome (r := .ok x) (by rintro _ ⟨⟩; exact hx) fun _ _ => rfl

protected theorem fail (e : Error) : Constant post fun _ : ι => (Eval.fail e : Eval α) :=
  .of_outcome (r := .error e) nofun fun _ _ => rfl

protected theorem ofExcept {r : Except Error α} (hr : ∀ x, r = .ok x → post x) :
    Constant post fun _ : ι => Eval.ofExcept r :=
  .of_outcome hr fun _ _ => by cases r <;> rfl

protected theorem mono {post'' : α → Prop} {a : ι → Eval α} (h : Constant post a)
    (hpost : ∀ x, post x → post'' x) : Constant post'' a := by
  obtain ⟨r, made, hmade, hr, ha⟩ := h
  exact ⟨r, made, hmade, fun x hx => hpost x (hr x hx), ha⟩

protected theorem bind {a : ι → Eval α} {f : ι → α → Eval β} (ha : Constant post a)
    (hf : ∀ x, post x → Constant post' fun i => f i x) :
    Constant post' fun i => a i >>= f i := by
  obtain ⟨r, made, hmade, hr, ha⟩ := ha
  cases r with
  | error e => exact ⟨.error e, made, hmade, nofun, fun i s => outcome_bind_error (ha i s) _⟩
  | ok x =>
    obtain ⟨r', later, hlater, hr', hx⟩ := hf x (hr x rfl)
    refine ⟨r', made ++ later, hmade.append hlater, hr', fun i s => ?_⟩
    rw [outcome_bind_ok (ha i s), hx, State.after_after]

protected theorem map {a : ι → Eval α} (ha : Constant post a) {f : α → β}
    (hf : ∀ x, post x → post' (f x)) : Constant post' fun i => a i >>= fun x => pure (f x) :=
  ha.bind fun x hx => .pure (hf x hx)

protected theorem mapM {f : ι → γ → Eval α} {xs : List γ}
    (h : ∀ x ∈ xs, Constant post fun i => f i x) :
    Constant (fun ys => ∀ y ∈ ys, post y) fun i => xs.mapM (f i) := by
  induction xs with
  | nil =>
    simp only [List.mapM_nil]
    exact .pure (by simp)
  | cons x rest ih =>
    simp only [List.mapM_cons]
    rw [List.forall_mem_cons] at h
    exact h.1.bind fun y hy => (ih h.2).map fun ys hys => List.forall_mem_cons.mpr ⟨hy, hys⟩

end Eval.Constant

namespace Reduction.Build.Constant

variable {ι α : Type} {p : Node → Prop}

theorem of_outcome {a : ι → Build Unit} (ha : ∀ table, (Value.map table).Staged p p →
    ∃ (r : Except Error Unit) (table' : Table Value), (Value.map table').Staged p p ∧
      ∀ i s, (a i).outcome table s = ((r.mapError Stop.error, table'), s)) : Constant p a := by
  intro table htable
  obtain ⟨r, table', htable', hout⟩ := ha table htable
  exact ⟨r, table', [], nofun, htable', fun i s => by rw [hout, State.after_nil]⟩

protected theorem skip : Constant p fun _ : ι => (pure () : Build Unit) :=
  .of_outcome fun table htable => ⟨.ok (), table, htable, fun _ _ => rfl⟩

protected theorem andThen {a b : ι → Build Unit} (ha : Constant p a) (hb : Constant p b) :
    Constant p fun i => a i >>= fun _ => b i := by
  intro table htable
  obtain ⟨r, table', made, hmade, htable', ha⟩ := ha table htable
  cases r with
  | error e =>
    refine ⟨.error e, table', made, hmade, htable', fun i s => ?_⟩
    rw [Build.outcome_bind, ha]
    rfl
  | ok _ =>
    obtain ⟨r', table'', later, hlater, htable'', hb⟩ := hb table' htable'
    refine ⟨r', table'', made ++ later, hmade.append hlater, htable'', fun i s => ?_⟩
    rw [Build.outcome_bind, ha, ← State.after_after, ← hb]
    rfl

protected theorem afterEval {post : α → Prop} {a : ι → Eval α} {b : ι → α → Build Unit}
    (ha : Eval.Constant post a) (hb : ∀ x, post x → Constant p fun i => b i x) :
    Constant p fun i => Build.ofEval (a i) >>= b i := by
  intro table htable
  obtain ⟨r, made, hmade, hr, ha⟩ := ha
  cases r with
  | error e =>
    refine ⟨.error e, table, made, hmade, htable, fun i s => ?_⟩
    rw [Build.outcome_bind, Build.outcome_ofEval, ha]
    rfl
  | ok x =>
    obtain ⟨r', table', later, hlater, htable', hb⟩ := hb x (hr x rfl) table htable
    refine ⟨r', table', made ++ later, hmade.append hlater, htable', fun i s => ?_⟩
    rw [Build.outcome_bind, Build.outcome_ofEval, ha, ← State.after_after, ← hb]
    rfl

protected theorem insert (name : String) {v : Value} (hv : v.Staged p p) :
    Constant p fun _ : ι => Build.insert name v :=
  .of_outcome fun table htable =>
    ⟨.ok (), Table.insert table name v, Value.staged_insert htable hv, fun _ _ => rfl⟩

protected theorem within {a : ι → Build Unit} (ha : Constant p a) (path : Path) :
    Constant p fun i => Build.within path (a i) := by
  intro table htable
  have hinner := Value.staged_mapAt htable path
  obtain ⟨r, inner, made, hmade, hinner', ha⟩ := ha _ hinner
  refine ⟨r, Document.put table path (.map inner), made, hmade, ?_, fun i s => ?_⟩
  · exact Value.staged_put htable hinner'
  · rw [Build.outcome_within]
    dsimp only
    rw [ha]

protected theorem block {a : ι → Build Unit} (ha : Constant p a) (names : List String)
    (position : Option Position) : Constant p fun i => Build.block names position (a i) := by
  intro table htable
  cases hplace : place table names with
  | error obstacle =>
    refine ⟨.error (obstacle.1.error obstacle.2 position), table, [], nofun, htable,
      fun i s => ?_⟩
    rw [State.after_nil, Build.outcome_block_eq, hplace]
    rfl
  | ok placed =>
    obtain ⟨r, table', made, hmade, htable', hout⟩ :=
      ha.within placed.2 placed.1 (staged_place hplace htable)
    refine ⟨r, table', made, hmade, htable', fun i s => ?_⟩
    rw [← hout, Build.outcome_block_eq, hplace]

protected theorem table {a : ι → Build Unit} (ha : Constant p a) :
    Eval.Constant (fun table => (Value.map table).Staged p p) fun i => Build.table (a i) := by
  obtain ⟨r, table, made, hmade, htable, ha⟩ := ha [] (by simp)
  refine ⟨r.map fun _ => table, made, hmade, fun x hx => ?_, fun i s => ?_⟩
  · cases r with
    | error e => cases hx
    | ok _ =>
      cases hx
      exact htable
  · rw [Build.outcome_table, ha]
    cases r <;> rfl

end Reduction.Build.Constant

namespace Reduction

variable {ι : Type} {p : Node → Prop} {reduce : ι → Node → Eval Value}

abbrev Free (v : Value) : Prop := v.Every fun _ => False

theorem Free.staged {v : Value} (h : Free v) : v.Staged p p :=
  Value.Every.staged (fun _ h => h) (h.mono fun _ => False.elim)

section
variable (h : ∀ node, p node → Eval.Constant Free fun i => reduce i node)
include h

theorem constant_operand {nodes : List Node} (hn : ∀ node ∈ nodes, p node) :
    Eval.Constant Free fun i => operand (reduce i) nodes := by
  induction nodes with
  | nil => exact .pure Value.every_null
  | cons node rest ih =>
    rw [List.forall_mem_cons] at hn
    simp only [operand]
    split
    · exact (ih hn.2).map fun _ hv => every_applyUnary hv
    · exact h node hn.1

theorem constant_evaluateFrom {result : Value} {nodes : List Node} (hn : ∀ node ∈ nodes, p node)
    (hr : Free result) : Eval.Constant Free fun i => evaluateFrom (reduce i) result nodes := by
  induction result, nodes using evaluateFrom.induct with
  | case1 result | case2 result _ =>
    simp only [evaluateFrom]
    exact .pure hr
  | case3 result rest htruthy ih =>
    simp only [evaluateFrom, htruthy, if_true]
    exact ih (fun node hmem => hn node (List.mem_cons_of_mem _ hmem)) Value.every_null
  | case4 result rest htruthy ih =>
    simp only [evaluateFrom, htruthy]
    exact ih (fun node hmem => hn node (List.mem_cons_of_mem _ (mem_of_mem_skipBranch hmem)))
      Value.every_null
  | case5 result rest first second | case6 result rest first second =>
    simp only [evaluateFrom]
    have hleft : ∀ node ∈ rest.takeWhile (!endsLogical ·), p node :=
      fun node hmem => hn node (List.mem_cons_of_mem _ ((List.takeWhile_sublist _).subset hmem))
    have hright : ∀ node ∈ rest.dropWhile (!endsLogical ·), p node :=
      fun node hmem => hn node (List.mem_cons_of_mem _ ((List.dropWhile_sublist _).subset hmem))
    exact (first hleft Value.every_null).bind fun right _ => second right hright (by simp)
  | case7 result rest ih =>
    simp only [evaluateFrom]
    rw [List.forall_mem_cons] at hn
    have hafter := fun node hmem => hn.2 node (mem_of_mem_afterOperand hmem)
    exact (constant_operand h hn.2).bind fun right _ => ih right hafter (by simp)
  | case8 result operator rest _ _ _ _ _ ih =>
    simp only [evaluateFrom]
    rw [List.forall_mem_cons] at hn
    have hafter := fun node hmem => hn.2 node (mem_of_mem_afterOperand hmem)
    exact (constant_operand h hn.2).bind fun right hright =>
      ih right hafter (every_apply hr hright)
  | case9 result node rest _ _ _ _ _ _ ih =>
    simp only [evaluateFrom]
    rw [List.forall_mem_cons] at hn
    exact (h node hn.1).bind fun value hvalue => ih value hn.2 hvalue

theorem constant_arguments? {nodes : List Node} (hn : ∀ node ∈ nodes, p node) :
    Eval.Constant (fun values? => ∀ values, values? = some values → ∀ v ∈ values, Free v)
      fun i => arguments? (reduce i) nodes := by
  induction nodes with
  | nil => exact .pure (by simp)
  | cons node rest ih =>
    rw [List.forall_mem_cons] at hn
    simp only [arguments?]
    refine (h node hn.1).bind fun value hvalue => ?_
    split
    · exact .pure (by simp)
    · refine (ih hn.2).map fun values? hvalues values hmap => ?_
      obtain ⟨values', rfl, rfl⟩ := Option.map_eq_some_iff.mp hmap
      exact List.forall_mem_cons.mpr ⟨hvalue, hvalues values' rfl⟩

theorem constant_callWith {call : ι → String → List Value → Eval Value}
    (hcall : ∀ name values, (∀ v ∈ values, Free v) →
      Eval.Constant Free fun i => call i name values)
    {nodes : List Node} (hn : ∀ node ∈ nodes, p node) (name : String) (spread : Bool) :
    Eval.Constant Free fun i => callWith (call i) (reduce i) name nodes spread := by
  unfold callWith
  refine (constant_arguments? h hn).bind fun values? hvalues => ?_
  cases values? with
  | none => exact .pure Value.every_null
  | some values =>
    have hevery := hvalues values rfl
    cases spread with
    | false => exact hcall name values hevery
    | true =>
      dsimp only [if_true]
      cases hspread : spread? values with
      | none => exact .pure Value.every_null
      | some values' => exact hcall name values' (every_spread? hspread hevery)

end

mutual

theorem constant_reduceValue (h : ∀ node, p node → Eval.Constant Free fun i => reduce i node) :
    (v : Value) → v.Every p → Eval.Constant Free fun i => reduceValue (reduce i) v
  | .map entries, hv =>
    (constant_reduceEntries h entries ((Value.every_map _).mp hv)).map
      fun _ hes => (Value.every_map _).mpr hes
  | .list items, hv =>
    (constant_reduceItems h items ((Value.every_list _).mp hv)).map
      fun _ hvs => (Value.every_list _).mpr hvs
  | .node tree, hv => h tree ((Value.every_node _).mp hv)
  | .null, _ | .bool _, _ | .number _, _ | .string _, _ | .type _, _ => .pure (by simp)
termination_by structural v => v

theorem constant_reduceItems (h : ∀ node, p node → Eval.Constant Free fun i => reduce i node) :
    (items : List Value) → (∀ v ∈ items, v.Every p) →
      Eval.Constant (fun vs => ∀ v ∈ vs, Free v) fun i => reduceItems (reduce i) items
  | [], _ => .pure (by simp)
  | v :: rest, hv =>
    (constant_reduceValue h v (List.forall_mem_cons.mp hv).1).bind fun w hw =>
      (constant_reduceItems h rest (List.forall_mem_cons.mp hv).2).map fun ws hws =>
        List.forall_mem_cons.mpr ⟨hw, hws⟩

theorem constant_reduceEntries (h : ∀ node, p node → Eval.Constant Free fun i => reduce i node) :
    (entries : List (String × Value)) → (∀ e ∈ entries, e.2.Every p) →
      Eval.Constant (fun es => ∀ e ∈ es, Free e.2) fun i => reduceEntries (reduce i) entries
  | [], _ => .pure (by simp)
  | (_, v) :: rest, hv =>
    (constant_reduceValue h v (List.forall_mem_cons.mp hv).1).bind fun w hw =>
      (constant_reduceEntries h rest (List.forall_mem_cons.mp hv).2).map fun es hes =>
        List.forall_mem_cons.mpr ⟨hw, hes⟩

end

/-- Trees without references that evaluate to constants, and those below them. -/
structure ConstantTrees (p : Node → Prop) (reduce : ι → Node → Eval Value) : Prop where
  hereditary : Node.Hereditary p
  free : ∀ node, p node → node.hasReferences = false
  constant : ∀ node, p node → Eval.Constant Free fun i => reduce i node

theorem constant_computedName (K : ConstantTrees p reduce) {name : Node} (hn : p name) :
    Eval.Constant (fun _ => True) fun i => computedName (reduce i) name := by
  refine (K.constant name hn).bind fun v _ => ?_
  cases v.keyText? with
  | some key => exact .pure trivial
  | none => exact .fail _

mutual

theorem constant_structureEach (K : ConstantTrees p reduce) :
    (nodes : List Node) → (∀ node ∈ nodes, p node) →
      Build.Constant p fun i => structureEach (reduce i) nodes
  | [], _ => .skip
  | node :: rest, hn =>
    (constant_structureNode K node (List.forall_mem_cons.mp hn).1).andThen
      (constant_structureEach K rest (List.forall_mem_cons.mp hn).2)
termination_by structural nodes => nodes

theorem constant_structureNode (K : ConstantTrees p reduce) : (node : Node) → p node →
    Build.Constant p fun i => structureNode (reduce i) node
  | .block names children position, hn =>
    (constant_structureEach K children (K.hereditary _ hn)).block names position
  | .named name children _, hn =>
    .afterEval (constant_structureChildren K _ children hn (K.hereditary _ hn))
      fun _ hv => .insert name hv
  | .keyed key children _, hn =>
    have hparts : ∀ part ∈ key :: children, p part := K.hereditary _ hn
    .afterEval (constant_computedName K (List.forall_mem_cons.mp hparts).1) fun name _ =>
      .afterEval (constant_structureChildren K _ children hn (List.forall_mem_cons.mp hparts).2)
        fun _ hv => .insert name hv
  | .map _, _ | .array _, _ | .literal .., _ | .type _, _ | .operator _, _ | .reference _, _
  | .segment _, _ | .call .., _ | .group _, _ | .interpolation _, _ | .comprehension .., _ => .skip

theorem constant_structureChildren (K : ConstantTrees p reduce) (whole : Node) :
    (children : List Node) → p whole → (∀ child ∈ children, p child) →
      Eval.Constant (fun v => v.Staged p p) fun i => structureChildren (reduce i) whole children
  | [], hw, _ => .pure (by simpa using hw)
  | [child], hw, hc => constant_structureOnly K whole child hw (hc child (List.mem_cons_self ..))
  | _ :: _ :: _, hw, _ => .pure (by simpa using hw)

theorem constant_structureOnly (K : ConstantTrees p reduce) (whole : Node) :
    (child : Node) → p whole → p child →
      Eval.Constant (fun v => v.Staged p p) fun i => structureOnly (reduce i) whole child
  | .block _ children _, _, hc =>
    (constant_structureEach K children (K.hereditary _ hc)).table.map fun _ ht => ht
  | .literal kind raw, _, _ => .ofExcept fun _ hv => Free.staged (Coupling.every_literalValue hv)
  | .type marker, _, _ => .pure (by simp)
  | .map entries, _, hc => by
    simp only [structureOnly]
    split
    · exact .pure (by simpa using hc)
    · exact (constant_structureEach K entries (K.hereditary _ hc)).table.map fun _ ht => ht
  | .array elements, _, hc => by
    simp only [structureOnly]
    split
    · exact .pure (by simp)
    · exact (constant_structureValues K elements (K.hereditary _ hc)).map
        fun vs hvs => by simpa using hvs
  | .named .., hw, _ | .keyed .., hw, _ | .operator _, hw, _ | .reference _, hw, _
  | .segment _, hw, _ | .call .., hw, _ | .group _, hw, _ | .interpolation _, hw, _
  | .comprehension .., hw, _ => .pure (by simpa using hw)

theorem constant_structureValue (K : ConstantTrees p reduce) : (node : Node) → p node →
    Eval.Constant (fun v => v.Staged p p) fun i => structureValue (reduce i) node
  | .literal kind raw, _ => .ofExcept fun _ hv => Free.staged (Coupling.every_literalValue hv)
  | .type marker, _ => .pure (by simp)
  | .map entries, hn => by
    simp only [structureValue]
    split
    · exact .pure (by simpa using hn)
    · exact (constant_structureEach K entries (K.hereditary _ hn)).table.map fun _ ht => ht
  | .array elements, hn => by
    simp only [structureValue]
    split
    · exact .pure (by simp)
    · exact (constant_structureValues K elements (K.hereditary _ hn)).map
        fun vs hvs => by simpa using hvs
  | .block names children position, hn =>
    ((constant_structureEach K children (K.hereditary _ hn)).block names position).table.map
      fun _ ht => ht
  | .named name children position, hn =>
    (constant_structureChildren K _ children hn (K.hereditary _ hn)).map
      fun v hv => (Value.staged_map_singleton name v).mpr hv
  | .keyed key children position, hn =>
    have hparts : ∀ part ∈ key :: children, p part := K.hereditary _ hn
    (constant_computedName K (List.forall_mem_cons.mp hparts).1).bind fun name _ =>
      (constant_structureChildren K _ children hn (List.forall_mem_cons.mp hparts).2).map
        fun v hv => (Value.staged_map_singleton name v).mpr hv
  | .operator _, _ | .segment _, _ => .pure (by simp)
  | .reference _, hn | .comprehension .., hn => nomatch K.free _ hn
  | .call .., hn | .group _, hn | .interpolation _, hn => by
    simp only [structureValue, K.free _ hn, Bool.false_eq_true, if_false]
    exact (K.constant _ hn).mono fun _ => Free.staged

theorem constant_structureValues (K : ConstantTrees p reduce) :
    (nodes : List Node) → (∀ node ∈ nodes, p node) →
      Eval.Constant (fun vs => ∀ v ∈ vs, v.Staged p p) fun i => structureValues (reduce i) nodes
  | [], _ => .pure (by simp)
  | node :: rest, hn =>
    (constant_structureValue K node (List.forall_mem_cons.mp hn).1).bind fun _ hv =>
      (constant_structureValues K rest (List.forall_mem_cons.mp hn).2).map fun _ hvs =>
        List.forall_mem_cons.mpr ⟨hv, hvs⟩

end

section
variable {functions : Table Function} {setting : ι → Setting}
  (hsetting : ∀ i, (setting i).functions = functions)
include hsetting

theorem constant_invoke (hfunctions : PureFunctions functions) (name : String)
    {values : List Value} (hvalues : ∀ v ∈ values, Free v) :
    Eval.Constant Free fun i => invoke (setting i) name values := by
  cases hf : functions.get? name with
  | none =>
    have hunknown (i : ι) : invoke (setting i) name values = pure .null :=
      invoke_of_none (by rw [hsetting, hf]) values
    simp only [hunknown]
    exact .pure Value.every_null
  | some f =>
    refine ⟨(f [] values).mapError (.functionFailed name), [.function name values],
      onlyFunctions_function name values, fun v hv => ?_, fun i s => ?_⟩
    · cases hr : f [] values with
      | error cause =>
        rw [hr] at hv
        cases hv
      | ok w =>
        rw [hr] at hv
        cases hv
        exact hfunctions.free hf hvalues hr
    · have hhistory : (setting i).HistoryFree := by
        unfold Setting.HistoryFree
        rw [hsetting]
        exact hfunctions.history
      rw [outcome_invoke_of_historyFree hhistory (by rw [hsetting, hf])]
      cases f [] values <;> rfl

/-- As deep as a tree without references is large, it comes to the same everywhere. -/
theorem constant_reduceNode (hfunctions : PureFunctions functions) {n : ℕ} {node : Node}
    (hsize : node.size ≤ n) (hnode : node.hasReferences = false) {depth : ι → ℕ}
    (hdepth : ∀ i, n ≤ depth i) :
    Eval.Constant Free fun i => reduceNode (setting i) (depth i) node := by
  -- parts are smaller than their node, and so are the trees that stay in a table
  induction n generalizing node depth with
  | zero => exact absurd node.size_pos (by omega)
  | succ n ih =>
    have hstep (i : ι) : reduceNode (setting i) (depth i) node =
        stepWith (resolveReference (reduceNode (setting i) (depth i - 1)) (setting i)
          (depth i - 1)) (invoke (setting i)) (reduceNode (setting i) (depth i - 1)) node := by
      have hdeep : depth i = depth i - 1 + 1 := by
        have := hdepth i
        omega
      rw [hdeep, Nat.add_sub_cancel, reduceNode, reduceStep_eq]
    have hbelow (tree : Node) (htree : tree.hasReferences = false ∧ tree.size ≤ n) :
        Eval.Constant Free fun i => reduceNode (setting i) (depth i - 1) tree :=
      ih htree.2 htree.1 fun i => by
        have := hdepth i
        omega
    have hparts : ∀ part ∈ node.parts, part.hasReferences = false ∧ part.size ≤ n :=
      fun part hpart => ⟨Node.hereditary_not_hasReferences node hnode part hpart, by
        have := Node.size_lt_of_mem_parts hpart
        omega⟩
    have K : ConstantTrees (fun tree => tree.hasReferences = false ∧ tree.size ≤ n)
        fun i => reduceNode (setting i) (depth i - 1) :=
      ⟨fun tree htree part hpart => ⟨Node.hereditary_not_hasReferences tree htree.1 part hpart,
        (Node.size_lt_of_mem_parts hpart).le.trans htree.2⟩, fun _ htree => htree.1, hbelow⟩
    simp only [hstep]
    cases node with
    | named _ children _ | group children | interpolation children =>
      exact constant_evaluateFrom hbelow hparts Value.every_null
    | keyed _ children _ =>
      exact constant_evaluateFrom hbelow (List.forall_mem_cons.mp hparts).2 Value.every_null
    | block names children position =>
      have hfilled := (constant_structureEach K children hparts).block names position
      exact (hfilled.table.map fun _ ht => ht).bind fun v hv =>
        constant_reduceValue hbelow v (Value.Staged.every hv)
    | map entries =>
      have hfilled := constant_structureEach K entries hparts
      exact hfilled.table.bind fun table ht =>
        constant_reduceValue hbelow (.map table) (Value.Staged.every ht)
    | array elements =>
      simp only [stepWith]
      split
      · exact .pure Value.every_null
      · exact (Eval.Constant.mapM fun element hmem => hbelow element (hparts element hmem)).map
          fun vs hvs => (Value.every_list vs).mpr hvs
    | literal kind raw => exact .ofExcept fun _ => Coupling.every_literalValue
    | type marker => exact .pure (by simp)
    | reference _ | comprehension _ _ _ _ _ _ _ => cases hnode
    | call name arguments spread =>
      exact constant_callWith hbelow (fun name _ => constant_invoke hsetting hfunctions name) hparts
        name spread
    | operator _ | segment _ => exact .pure (by simp)

end

end Reduction

/-- A tree that refers to nothing can be evaluated at any time: there is one value without syntax,
or one error, that it comes to in every state, whatever the variables, lookups and the limit of
references are, and it leaves all of the state as it is but for the functions it has called. -/
theorem reference_free_is_constant {functions : Table Function}
    (hfunctions : PureFunctions functions) {node : Node} (hnode : node.hasReferences = false) :
    ∃ (r : Except Error Value) (made : List Call), OnlyFunctions made ∧
      (∀ v, r = .ok v → v.Every fun _ => False) ∧
        ∀ setting : Setting, setting.functions = functions → ∀ depth, node.size ≤ depth → ∀ s,
          (reduceNode setting depth node).outcome s =
            (r.mapError Stop.error, { s with calls := s.calls ++ made }) := by
  have hconstant : Eval.Constant Free
      fun i : { i : Setting × ℕ // i.1.functions = functions ∧ node.size ≤ i.2 } =>
        reduceNode i.1.1 i.1.2 node :=
    constant_reduceNode (fun i => i.2.1) hfunctions le_rfl hnode fun i => i.2.2
  obtain ⟨r, made, hmade, hr, hall⟩ := hconstant
  exact ⟨r, made, hmade, hr, fun setting hsetting depth hdepth s =>
    hall ⟨⟨setting, depth⟩, hsetting, hdepth⟩ s⟩

def keyFunctions : Table Function := [("key", fun _ _ => .ok (.string "k"))]

theorem pure_keyFunctions : PureFunctions keyFunctions where
  history {name f} h := by
    simp only [keyFunctions, Table.get?] at h
    split at h <;> cases h
    exact fun _ _ => rfl
  free {name f values v} h _ hv := by
    simp only [keyFunctions, Table.get?] at h
    split at h <;> cases h
    cases hv
    simp

def keyTree : Node :=
  .map [.keyed (.call "key" [] false) [.array [.call "key" [] false, .string "a"]] none]

theorem reference_free_is_constant_object :
    let inside : State := { scopes := [[("a", .null)]], resolving := ["local.a"] }
    (reduceNode ⟨keyFunctions, [], [("key", .null)], 0⟩ 9 keyTree).outcome inside =
      (.ok (.map [("k", .list [.string "k", .string "a"])]),
        { inside with calls := [.function "key" [], .function "key" []] }) := by
  intro inside
  have hfree : keyTree.hasReferences = false := rfl
  obtain ⟨r, made, -, -, hall⟩ := reference_free_is_constant pure_keyFunctions hfree
  have hstart : (reduceNode ⟨keyFunctions, [], [], 1⟩ 9 keyTree).outcome {} =
      (.ok (.map [("k", .list [.string "k", .string "a"])]),
        { calls := [.function "key" [], .function "key" []] }) := rfl
  obtain ⟨hr, hmade⟩ := Prod.mk.inj (hstart.symm.trans (hall ⟨_, [], [], 1⟩ rfl 9 (by decide) {}))
  obtain rfl : [.function "key" [], .function "key" []] = made := congrArg State.calls hmade
  rw [hall _ rfl 9 (by decide), ← hr]
  rfl

end HclEval
