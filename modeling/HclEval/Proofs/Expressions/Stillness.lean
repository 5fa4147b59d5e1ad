import HclEval.Proofs.Coupling.Evaluation
import HclEval.Proofs.Expressions.Shape

/-!
Evaluations that read nothing of the state. Where functions answer by their arguments alone, what
refers to nothing comes to the same in every state and leaves nothing behind but calls of functions;
and so does the first pass over an operand, which evaluates nothing else.
-/
namespace HclEval

open Filter Reduction

def Call.isFunction : Call → Bool
  | .function .. => true
  | .lookup .. => false

def Setting.HistoryFree (setting : Setting) : Prop :=
  ∀ {name f}, setting.functions.get? name = some f → ∀ calls values, f calls values = f [] values

/-- Functions answer by their arguments alone, and make no syntax of arguments without any. A
lookup knows how often something was looked up, but nothing of calls that leave no trace. -/
structure Setting.Repeatable (setting : Setting) : Prop where
  history : setting.HistoryFree
  free : ∀ {name f values v}, setting.functions.get? name = some f →
    (∀ u ∈ values, u.Every fun _ => False) → f [] values = .ok v → v.Every fun _ => False
  lookups : ∀ {name lookup}, setting.lookups.get? name = some lookup → ∀ calls properties,
    lookup calls properties = lookup (calls.filter (!·.isFunction)) properties

def State.after (s : State) (made : List Call) : State := { s with calls := s.calls ++ made }

@[simp] theorem State.after_nil (s : State) : s.after [] = s := by
  simp [State.after]

@[simp] theorem State.after_after (s : State) (made later : List Call) :
    (s.after made).after later = s.after (made ++ later) := by
  simp [State.after, List.append_assoc]

def OnlyFunctions (made : List Call) : Prop := ∀ call ∈ made, call.isFunction = true

theorem OnlyFunctions.append {made later : List Call} (h : OnlyFunctions made)
    (h' : OnlyFunctions later) : OnlyFunctions (made ++ later) := by
  simpa [OnlyFunctions, or_imp, forall_and] using And.intro h h'

theorem onlyFunctions_function (name : String) (values : List Value) :
    OnlyFunctions [.function name values] := by
  simp [OnlyFunctions, Call.isFunction]

theorem outcome_invoke_of_historyFree {setting : Setting} (h : setting.HistoryFree)
    {name : String} {f : Function} (hf : setting.functions.get? name = some f)
    (values : List Value) (s : State) : (invoke setting name values).outcome s =
      (functionResult name (f [] values), s.after [.function name values]) := by
  rw [outcome_invoke hf, h hf]
  rfl

def Eval.Still {α : Type} (a : Eval α) : Prop :=
  ∃ r made, OnlyFunctions made ∧ ∀ s, a.outcome s = (r, s.after made)

def Reduction.Build.Still {α : Type} (a : Build α) : Prop :=
  ∀ table, ∃ r made, OnlyFunctions made ∧ ∀ s, a.outcome table s = (r, s.after made)

namespace Eval.Still

variable {α β : Type}

theorem of_outcome {a : Eval α} {r : Except Stop α} (h : ∀ s, a.outcome s = (r, s)) : a.Still :=
  ⟨r, [], nofun, fun s => by rw [h, State.after_nil]⟩

protected theorem pure (x : α) : (pure x : Eval α).Still := .of_outcome fun _ => rfl

protected theorem bind {a : Eval α} {f : α → Eval β} (ha : a.Still) (hf : ∀ x, (f x).Still) :
    (a >>= f).Still := by
  obtain ⟨r, made, hmade, ha⟩ := ha
  cases r with
  | error e => exact ⟨.error e, made, hmade, fun s => Eval.outcome_bind_error (ha s) f⟩
  | ok x =>
    obtain ⟨r', later, hlater, hx⟩ := hf x
    refine ⟨r', made ++ later, hmade.append hlater, fun s => ?_⟩
    rw [Eval.outcome_bind_ok (ha s), hx, State.after_after]

protected theorem ofExcept (r : Except Error α) : (Eval.ofExcept r).Still := by
  cases r with
  | ok x => exact .pure x
  | error e => exact .of_outcome fun _ => rfl

end Eval.Still

namespace Reduction.Build.Still

variable {α β : Type}

protected theorem bind {a : Build α} {f : α → Build β} (ha : a.Still) (hf : ∀ x, (f x).Still) :
    (a >>= f).Still := by
  intro table
  obtain ⟨⟨r, table'⟩, made, hmade, ha⟩ := ha table
  cases r with
  | error e =>
    refine ⟨(.error e, table'), made, hmade, fun s => ?_⟩
    rw [Build.outcome_bind, ha]
  | ok x =>
    obtain ⟨r', later, hlater, hx⟩ := hf x table'
    refine ⟨r', made ++ later, hmade.append hlater, fun s => ?_⟩
    rw [Build.outcome_bind, ha]
    dsimp only
    rw [hx, State.after_after]

protected theorem ofEval {a : Eval α} (h : a.Still) : (Build.ofEval a).Still := by
  intro table
  obtain ⟨r, made, hmade, ha⟩ := h
  exact ⟨(r, table), made, hmade, fun s => by rw [Build.outcome_ofEval, ha]⟩

theorem of_outcome {a : Build α}
    (h : ∀ table, ∃ r, ∀ s, a.outcome table s = (r, s)) : a.Still := fun table =>
  (h table).imp fun r hr => ⟨[], nofun, fun s => by rw [hr, State.after_nil]⟩

protected theorem table {a : Build Unit} (h : a.Still) : (Build.table a).Still := by
  obtain ⟨r, made, hmade, ha⟩ := h []
  exact ⟨r.1.map fun _ => r.2, made, hmade, fun s => by rw [Build.outcome_table, ha]⟩

end Reduction.Build.Still

namespace Coupling

def detached (start : State) : Coupling where
  rel s t := ∃ made, OnlyFunctions made ∧ s = { calls := made } ∧ t = start.after made
  strict _ := True
  trees tree := tree.hasReferences = false
  results _ := False
  becomes _ v := v.Every fun _ => False
  hereditary := Node.hereditary_not_hasReferences
  trees_of_results _ h := h.elim
  every_of_becomes _ _ h := h
  closed _ _ _ hv hfills := hfills.every (fun _ _ h => h) hv

variable {setting : Setting} {start : State}

theorem detached_invoke (hsetting : setting.Repeatable) (name : String) {values : List Value}
    (hvalues : ∀ v ∈ values, v.Every (detached start).results) :
    (detached start).Sim (detached start).Result (invoke setting name values)
      fun _ => invoke setting name values := by
  cases hf : setting.functions.get? name with
  | none =>
    rw [invoke_of_none hf]
    exact .pure fun _ => Value.every_null
  | some f =>
    rintro s t ⟨made, hmade, rfl, rfl⟩
    have houtcome := outcome_invoke_of_historyFree hsetting.history hf values
    refine .of_outcome (houtcome _) (houtcome _) ⟨made ++ [.function name values], ?_, rfl, ?_⟩
      ⟨⟨rfl, rfl⟩, .refl _⟩ ⟨rfl, rfl⟩ fun v hv => ?_
    · exact hmade.append (onlyFunctions_function name values)
    · rw [State.after_after]
    · exact hsetting.free hf hvalues (ok_of_functionResult hv)

theorem detached_reduceNode (hsetting : setting.Repeatable) (depth : ℕ) {tree : Node}
    (htree : tree.hasReferences = false) :
    (detached start).Sim (detached start).Result (reduceNode setting depth tree)
      fun _ => reduceNode setting depth tree := by
  induction depth generalizing tree with
  | zero => exact .throw .exhausted
  | succ depth ih =>
    simp only [reduceNode, reduceStep_eq]
    -- References and `for` expressions do refer to something.
    exact Sim.stepWith (fun tree htree => ih htree) (fun segments h => by cases h)
      (fun name values hvalues => detached_invoke hsetting name hvalues) (fun h => by cases h) htree

end Coupling

namespace Reduction

section
variable {setting : Setting} (hsetting : setting.Repeatable) (depth : ℕ)
include hsetting

theorem still_reduceNode {tree : Node} (htree : tree.hasReferences = false) :
    (reduceNode setting depth tree).Still := by
  rcases h : (reduceNode setting depth tree).outcome {} with ⟨r, s'⟩
  refine ⟨r, s'.calls, ?_, fun s => ?_⟩
  · obtain ⟨-, -, ⟨made, hmade, rfl, -⟩, -⟩ := Coupling.detached_reduceNode hsetting depth htree
      {} {} ⟨[], nofun, rfl, (State.after_nil {}).symm⟩ r s' h fun _ _ => trivial
    exact hmade
  · obtain ⟨t', hsame, ⟨made, -, rfl, rfl⟩, -⟩ := Coupling.detached_reduceNode hsetting depth htree
      {} s ⟨[], nofun, rfl, (State.after_nil s).symm⟩ r s' h fun _ _ => trivial
    exact eventually_const.1 hsame

theorem free_of_reduceNode {tree : Node} (htree : tree.hasReferences = false) {s s' : State}
    {v : Value} (h : (reduceNode setting depth tree).outcome s = (.ok v, s')) :
    v.Every fun _ => False := by
  obtain ⟨r, made, -, hstill⟩ := still_reduceNode hsetting depth htree
  have hr : r = .ok v := congrArg Prod.fst ((hstill s).symm.trans h)
  obtain ⟨-, -, -, -, -, hfree⟩ := Coupling.detached_reduceNode hsetting depth htree
    {} {} ⟨[], nofun, rfl, (State.after_nil {}).symm⟩ r _ (hstill {}) fun _ _ => trivial
  exact hfree v hr

end

section
variable {setting : Setting} (depth : ℕ)

theorem structureOnly_of_isPlain (reduce : Node → Eval Value) (whole : Node) {child : Node}
    (h : child.isPlain = true) :
    structureOnly reduce whole child = structureValue reduce child := by
  cases child <;> first | rfl | cases h

theorem structureOnly_of_isPlain_eq_false (reduce : Node → Eval Value) (whole : Node) {child : Node}
    (h : child.isPlain = false) (hblock : child.isBlock = false) :
    structureOnly reduce whole child = pure (.node whole) := by
  cases child <;> first | rfl | simp [Node.isPlain, Node.isBlock] at h hblock

mutual

theorem still_structureValue (hsetting : setting.Repeatable) : ∀ {node : Node}, node.Operand →
    (structureValue (reduceNode setting depth) node).Still
  | .literal kind raw, _ => .ofExcept _
  | .type marker, _ => .pure _
  | .map entries, h => by
    simp only [structureValue]
    split
    · exact .pure _
    · rename_i hkeyed
      have hentries := still_structureEach hsetting (by simpa using hkeyed) h.entry h.value
      exact hentries.table.bind fun _ => .pure _
  | .array elements, h => by
    simp only [structureValue]
    split
    · exact .pure _
    · exact (still_structureValues hsetting h.element).bind fun _ => .pure _
  | .reference _, _ | .comprehension .., _ => .pure _
  | .call .., _ | .group _, _ | .interpolation _, _ => by
    simp only [structureValue]
    split
    · exact .pure _
    · rename_i hfree
      exact still_reduceNode hsetting depth (by simpa using hfree)

theorem still_structureEach (hsetting : setting.Repeatable) : ∀ {entries : List Node},
    (∀ entry ∈ entries, entry.isKeyed = false) → (∀ entry ∈ entries, entry.isEntry = true) →
      (∀ entry ∈ entries, ∀ child ∈ entry.value, child.isOperator = false → child.Operand) →
        (structureEach (reduceNode setting depth) entries).Still
  | [], _, _, _ => .of_outcome fun _ => ⟨_, fun _ => rfl⟩
  | .named name children position :: rest, hkeyed, hentry, hvalue => by
    simp only [List.forall_mem_cons] at hkeyed hentry hvalue
    have hchildren : (structureChildren (reduceNode setting depth)
        (.named name children position) children).Still := by
      match children, hvalue.1 with
      | [], _ => exact .pure _
      | [child], h =>
        have hchild := h child (List.mem_singleton_self child)
        unfold structureChildren
        cases hplain : child.isPlain with
        | true =>
          rw [structureOnly_of_isPlain _ _ hplain]
          exact still_structureValue hsetting (hchild (Node.isOperator_of_isPlain hplain))
        | false =>
          rw [structureOnly_of_isPlain_eq_false _ _ hplain (Node.not_isBlock_of_operand hchild)]
          exact .pure _
      | _ :: _ :: _, _ => exact .pure _
    exact ((Build.Still.ofEval hchildren).bind fun _ => .of_outcome fun _ => ⟨_, fun _ => rfl⟩).bind
      fun _ => still_structureEach hsetting hkeyed.2 hentry.2 hvalue.2
  | .keyed .. :: _, hkeyed, _, _ => nomatch (List.forall_mem_cons.mp hkeyed).1
  | .block .. :: _, _, hentry, _ | .map _ :: _, _, hentry, _ | .array _ :: _, _, hentry, _
  | .literal .. :: _, _, hentry, _ | .type _ :: _, _, hentry, _ | .operator _ :: _, _, hentry, _
  | .reference _ :: _, _, hentry, _ | .segment _ :: _, _, hentry, _ | .call .. :: _, _, hentry, _
  | .group _ :: _, _, hentry, _ | .interpolation _ :: _, _, hentry, _
  | .comprehension .. :: _, _, hentry, _ => nomatch (List.forall_mem_cons.mp hentry).1

theorem still_structureValues (hsetting : setting.Repeatable) : ∀ {nodes : List Node},
    (∀ node ∈ nodes, node.Operand) → (structureValues (reduceNode setting depth) nodes).Still
  | [], _ => .pure _
  | _ :: _, h =>
    (still_structureValue hsetting (List.forall_mem_cons.mp h).1).bind fun _ =>
      (still_structureValues hsetting (List.forall_mem_cons.mp h).2).bind fun _ => .pure _

end

end

end Reduction
end HclEval
