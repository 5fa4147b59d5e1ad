import HclEval.Proofs.Coupling.Basic
import HclEval.Proofs.Staging
import HclEval.Reduction.Structure

/-!
The first pass side by side. Both evaluations fill the same tables, which stay staged; of the
nodes only the names of attributes and what refers to nothing are evaluated.
-/
namespace HclEval

open Filter Reduction

namespace Reduction.Build

variable {α β : Type}

def outcome (a : Build α) (table : Table Value) (s : State) :
    (Except Stop α × Table Value) × State :=
  ((a.run).run table).run s

theorem outcome_bind (a : Build α) (f : α → Build β) (table : Table Value) (s : State) :
    (a >>= f).outcome table s =
      match a.outcome table s with
      | ((.ok x, table'), s') => (f x).outcome table' s'
      | ((.error e, table'), s') => ((.error e, table'), s') := by
  simp only [outcome, ExceptT.run_bind, StateT.run_bind]
  rcases StateT.run (StateT.run (ExceptT.run a) table) s with ⟨⟨x | x, table'⟩, s'⟩ <;> rfl

theorem outcome_ofEval (a : Eval α) (table : Table Value) (s : State) :
    (ofEval a).outcome table s = (((a.outcome s).1, table), (a.outcome s).2) := rfl

theorem outcome_table (a : Build Unit) (s : State) :
    (Build.table a).outcome s =
      ((a.outcome [] s).1.1.map fun _ => (a.outcome [] s).1.2, (a.outcome [] s).2) := rfl

theorem outcome_within (path : Path) (a : Build Unit) (table : Table Value) (s : State) :
    (within path a).outcome table s =
      let inner := (((Value.map table).at? path).bind Value.map?).getD []
      (((a.outcome inner s).1.1, Document.put table path (.map (a.outcome inner s).1.2)),
        (a.outcome inner s).2) := rfl

theorem outcome_block_eq (names : List String) (position : Option Position) (body : Build Unit)
    (table : Table Value) (s : State) :
    (block names position body).outcome table s =
      match place table names with
      | .ok (table', path) => (within path body).outcome table' s
      | .error (obstacle, names) =>
        ((.error (.error (obstacle.error names position)), table), s) := by
  unfold block
  rw [outcome_bind]
  change (match place table names with
    | .ok (table, path) => do
      set table
      within path body
    | .error (obstacle, names) => throw (.error (obstacle.error names position)) :
      Build Unit).outcome table s = _
  cases place table names <;> rfl

end Reduction.Build

namespace Coupling

variable {C : Coupling} {α β : Type} {s t : State}

def FillsAt (C : Coupling) (s t : State) (table : Table Value) (post : α → Prop) (a : Build α)
    (b : ℕ → Build α) : Prop :=
  ∀ r table' s', a.outcome table s = ((r, table'), s') → (∀ e, r = .error e → C.strict e) →
    ∃ t', (∀ᶠ i in atTop, (b i).outcome table t = ((r, table'), t')) ∧ C.rel s' t' ∧
      s.Advance C.becomes s' ∧ t.Balanced t' ∧ (Value.map table').Staged C.trees C.results ∧
      ∀ x, r = .ok x → post x

def Fill (C : Coupling) (post : α → Prop) (a : Build α) (b : ℕ → Build α) : Prop :=
  ∀ s t table, C.rel s t → (Value.map table).Staged C.trees C.results →
    C.FillsAt s t table post a b

theorem FillsAt.intro {table table' : Table Value} {post : α → Prop} {a : Build α}
    {r : Except Stop α} (h : C.rel s t) (ha : ∀ s, a.outcome table s = ((r, table'), s))
    (htable : (Value.map table').Staged C.trees C.results) (hpost : ∀ x, r = .ok x → post x) :
    C.FillsAt s t table post a fun _ => a := by
  intro r' table'' s' hs _
  rw [ha] at hs
  obtain ⟨⟨rfl, rfl⟩, rfl⟩ : (r = r' ∧ table' = table'') ∧ s = s' := by simpa using hs
  exact ⟨t, .of_forall fun _ => ha t, h, .refl _, .refl t, htable, hpost⟩

protected theorem Fill.pure {post : α → Prop} {x : α} (hx : post x) :
    C.Fill post (pure x) fun _ => pure x :=
  fun _ _ _ h htable => .intro h (fun _ => rfl) htable fun _ h => by cases h; exact hx

protected theorem Fill.bind {post : α → Prop} {post' : β → Prop} {a : Build α} {b : ℕ → Build α}
    {f : α → Build β} {g : ℕ → α → Build β} (ha : C.Fill post a b)
    (hf : ∀ x, post x → C.Fill post' (f x) fun i => g i x) :
    C.Fill post' (a >>= f) fun i => b i >>= g i := by
  intro s t table hst htable r table'' s'' hr he
  rw [Build.outcome_bind] at hr
  rcases hs : a.outcome table s with ⟨⟨x | x, table'⟩, s'⟩ <;> rw [hs] at hr
  · obtain ⟨⟨rfl, rfl⟩, rfl⟩ : (Except.error x = r ∧ table' = table'') ∧ s' = s'' := by
      simpa using hr
    obtain ⟨t', hb, hrel, hadv, hbal, hstaged, -⟩ :=
      ha s t table hst htable _ _ _ hs fun e h => he e (by cases h; rfl)
    refine ⟨t', hb.mono fun i hi => ?_, hrel, hadv, hbal, hstaged, fun y hy => by cases hy⟩
    rw [Build.outcome_bind, hi]
  · obtain ⟨t', hb, hrel, hadv, hbal, hstaged, hpost⟩ :=
      ha s t table hst htable _ _ _ hs fun e h => by cases h
    obtain ⟨t'', hg, hrel', hadv', hbal', hstaged', hpost'⟩ :=
      hf x (hpost x rfl) s' t' table' hrel hstaged _ _ _ hr he
    refine ⟨t'', ?_, hrel', hadv.trans C.closed hadv', hbal.trans hbal', hstaged', hpost'⟩
    filter_upwards [hb, hg] with i hi hi'
    rw [Build.outcome_bind, hi]
    exact hi'

protected theorem Fill.throw {post : α → Prop} (e : Stop) :
    C.Fill post (throw e) fun _ => throw e :=
  fun _ _ _ h htable => .intro h (fun _ => rfl) htable fun _ h => by cases h

protected theorem Fill.get : C.Fill (fun table => (Value.map table).Staged C.trees C.results) get
    fun _ => get :=
  fun _ _ _ h htable => .intro h (fun _ => rfl) htable fun _ h => by cases h; exact htable

protected theorem Fill.set {table : Table Value} (h : (Value.map table).Staged C.trees C.results) :
    C.Fill (fun _ => True) (set table) fun _ => set table :=
  fun _ _ _ hst _ => .intro hst (fun _ => rfl) h fun _ _ => trivial

protected theorem Fill.ofEval {post : α → Prop} {a : Eval α} {b : ℕ → Eval α}
    (h : C.Sim (fun x _ => post x) a b) :
    C.Fill post (Build.ofEval a) fun i => Build.ofEval (b i) := by
  intro s t table hst htable r table' s' hr he
  rw [Build.outcome_ofEval] at hr
  rcases ha : a.outcome s with ⟨r', s''⟩
  rw [ha] at hr
  obtain ⟨⟨rfl, rfl⟩, rfl⟩ : (r' = r ∧ table = table') ∧ s'' = s' := by simpa using hr
  obtain ⟨t', hb, hrel, hadv, hbal, hpost⟩ := h s t hst _ _ ha he
  refine ⟨t', hb.mono fun i hi => ?_, hrel, hadv, hbal, htable, hpost⟩
  rw [Build.outcome_ofEval, hi]

protected theorem Fill.insert (name : String) {value : Value}
    (hv : value.Staged C.trees C.results) :
    C.Fill (fun _ => True) (Build.insert name value) fun _ => Build.insert name value :=
  fun _ _ _ h htable =>
    .intro h (fun _ => rfl) (Value.staged_insert htable hv) fun _ _ => trivial

protected theorem Fill.within {a : Build Unit} {b : ℕ → Build Unit} (h : C.Fill (fun _ => True) a b)
    (path : Path) :
    C.Fill (fun _ => True) (Build.within path a) fun i => Build.within path (b i) := by
  intro s t table hst htable r table' s' hr he
  rw [Build.outcome_within] at hr
  dsimp only at hr
  have hinner := Value.staged_mapAt htable path
  generalize hi : (((Value.map table).at? path).bind Value.map?).getD [] = inner at hr hinner
  rcases ha : a.outcome inner s with ⟨⟨r', inner'⟩, s''⟩
  rw [ha] at hr
  obtain ⟨⟨rfl, rfl⟩, rfl⟩ :
      (r' = r ∧ Document.put table path (.map inner') = table') ∧ s'' = s' := by simpa using hr
  obtain ⟨t', hb, hrel, hadv, hbal, hstaged, -⟩ := h s t inner hst hinner _ _ _ ha he
  refine ⟨t', hb.mono fun i hb => ?_, hrel, hadv, hbal, Value.staged_put htable hstaged,
    fun _ _ => trivial⟩
  rw [Build.outcome_within]
  dsimp only
  rw [hi, hb]

protected theorem Fill.block {a : Build Unit} {b : ℕ → Build Unit} (h : C.Fill (fun _ => True) a b)
    (names : List String) (position : Option Position) :
    C.Fill (fun _ => True) (Build.block names position a)
      fun i => Build.block names position (b i) := by
  unfold Build.block
  refine Fill.get.bind fun table htable => ?_
  cases hplace : place table names with
  | ok result => exact (Fill.set (staged_place hplace htable)).bind fun _ _ => h.within result.2
  | error obstacle => exact .throw _

protected theorem Sim.table {a : Build Unit} {b : ℕ → Build Unit} (h : C.Fill (fun _ => True) a b) :
    C.Sim (fun table _ => (Value.map table).Staged C.trees C.results) (Build.table a)
      fun i => Build.table (b i) := by
  intro s t hst r s' hr he
  rw [Build.outcome_table] at hr
  rcases ha : a.outcome [] s with ⟨⟨r', table⟩, s''⟩
  rw [ha] at hr
  obtain ⟨rfl, rfl⟩ := Prod.mk.inj hr
  obtain ⟨t', hb, hrel, hadv, hbal, hstaged, -⟩ := h s t [] hst (by simp) _ _ _ ha
    fun e h => he e (by rw [h]; rfl)
  refine ⟨t', hb.mono fun i hi => by rw [Build.outcome_table, hi], hrel, hadv, hbal, ?_⟩
  rintro table' htable
  cases r' with
  | error e => cases htable
  | ok _ =>
    cases htable
    exact hstaged

protected theorem Sim.ofExcept {post : Value → State → Prop} {r : Except Error Value}
    (h : ∀ v s, r = .ok v → post v s) :
    C.Sim post (Eval.ofExcept r) fun _ => Eval.ofExcept r := by
  cases r with
  | ok v => exact .pure fun s => h v s rfl
  | error e => exact .fail e

theorem every_literalValue {p : Node → Prop} {kind : LiteralKind} {raw : String} {v : Value}
    (h : literalValue kind raw = .ok v) : v.Every p := by
  unfold literalValue at h
  split at h
  case h_2 => split at h <;> cases h; simp
  all_goals
    cases h
    simp

abbrev Stage (C : Coupling) (v : Value) : Prop := v.Staged C.trees C.results

theorem stage_of_every {v : Value} (h : v.Every C.results) : C.Stage v :=
  h.staged C.trees_of_results

protected theorem Sim.literalValue (kind : LiteralKind) (raw : String) :
    C.Sim (fun v _ => v.Every C.results) (Eval.ofExcept (literalValue kind raw))
      fun _ => Eval.ofExcept (literalValue kind raw) :=
  .ofExcept fun _ _ => every_literalValue

/-- What the first pass asks of the evaluation of nodes: that of keys, and that of nodes without
references. -/
structure Early (C : Coupling) (reduce : Node → Eval Value) (other : ℕ → Node → Eval Value) :
    Prop where
  key : ∀ tree, C.trees tree → C.Sim (fun _ _ => True) (reduce tree) fun i => other i tree
  free : ∀ tree, C.trees tree → tree.hasReferences = false →
    C.Sim C.Result (reduce tree) fun i => other i tree

section
variable {reduce : Node → Eval Value} {other : ℕ → Node → Eval Value}

theorem Early.of_becomes (h : ∀ tree, C.trees tree →
    C.Sim (fun v _ => C.becomes tree v) (reduce tree) fun i => other i tree) :
    C.Early reduce other where
  key tree htree := (h tree htree).mono fun _ _ _ => trivial
  free tree htree _ := (h tree htree).mono fun v _ => C.every_of_becomes tree v

protected theorem Sim.computedName (E : C.Early reduce other) {name : Node} (hn : C.trees name) :
    C.Sim (fun _ _ => True) (computedName reduce name) fun i => computedName (other i) name := by
  refine (E.key name hn).bind fun v s t _ hst => ?_
  cases h : v.keyText? with
  | some key => exact .pure hst trivial
  | none => exact .throw hst _

protected theorem Sim.deferred (E : C.Early reduce other) {node : Node} (hn : C.trees node) :
    C.Sim (fun v _ => C.Stage v)
      (if node.hasReferences then pure (.node node) else reduce node)
      fun i => if node.hasReferences then pure (.node node) else other i node := by
  cases h : node.hasReferences with
  | true => exact .pure fun _ => by simpa using hn
  | false => exact (E.free node hn h).mono fun _ _ => stage_of_every

mutual

theorem Fill.structureEach (E : C.Early reduce other) : (nodes : List Node) →
    (∀ node ∈ nodes, C.trees node) →
    C.Fill (fun _ => True) (structureEach reduce nodes) fun i => structureEach (other i) nodes
  | [], _ => .pure trivial
  | node :: rest, hn =>
    (Fill.structureNode E node (hn node (List.mem_cons_self ..))).bind fun _ _ =>
      Fill.structureEach E rest fun node h => hn node (List.mem_cons_of_mem _ h)
termination_by structural nodes => nodes

theorem Fill.structureNode (E : C.Early reduce other) : (node : Node) → C.trees node →
    C.Fill (fun _ => True) (structureNode reduce node) fun i => structureNode (other i) node
  | .block names children position, hn =>
    (Fill.structureEach E children (C.hereditary _ hn)).block names position
  | .named name children _, hn =>
    (Fill.ofEval (Sim.structureChildren E _ children hn (C.hereditary _ hn))).bind
      fun _ hv => .insert name hv
  | .keyed key children _, hn =>
    have hparts : ∀ part ∈ key :: children, C.trees part := C.hereditary _ hn
    (Fill.ofEval (Sim.computedName E (hparts key (List.mem_cons_self ..)))).bind fun name _ =>
      (Fill.ofEval (Sim.structureChildren E _ children hn
        fun part h => hparts part (List.mem_cons_of_mem _ h))).bind fun _ hv => .insert name hv
  | .map _, _ | .array _, _ | .literal .., _ | .type _, _ | .operator _, _ | .reference _, _
  | .segment _, _ | .call .., _ | .group _, _ | .interpolation _, _ | .comprehension .., _ =>
    .pure trivial

theorem Sim.structureChildren (E : C.Early reduce other) (whole : Node) :
    (children : List Node) → C.trees whole → (∀ child ∈ children, C.trees child) →
    C.Sim (fun v _ => C.Stage v) (structureChildren reduce whole children)
      fun i => structureChildren (other i) whole children
  | [], hw, _ => .pure fun _ => by simpa using hw
  | [child], hw, hc => Sim.structureOnly E whole child hw (hc child (List.mem_cons_self ..))
  | _ :: _ :: _, hw, _ => .pure fun _ => by simpa using hw

theorem Sim.structureOnly (E : C.Early reduce other) (whole : Node) :
    (child : Node) → C.trees whole → C.trees child →
    C.Sim (fun v _ => C.Stage v) (structureOnly reduce whole child)
      fun i => structureOnly (other i) whole child
  | .block _ children _, _, hc =>
    (Sim.table (Fill.structureEach E children (C.hereditary _ hc))).map fun _ _ h => h
  | .literal kind raw, _, _ => (Sim.literalValue kind raw).mono fun _ _ => stage_of_every
  | .type marker, _, _ => .pure (by simp)
  | .map entries, _, hc => by
    simp only [structureOnly]
    split
    · exact .pure fun _ => by simpa using hc
    · exact (Sim.table (Fill.structureEach E entries (C.hereditary _ hc))).map fun _ _ h => h
  | .array elements, _, hc => by
    simp only [structureOnly]
    split
    · exact .pure (by simp)
    · exact (Sim.structureValues E elements (C.hereditary _ hc)).map fun vs _ h => by simpa using h
  | .named .., hw, _ | .keyed .., hw, _ | .operator _, hw, _ | .reference _, hw, _
  | .segment _, hw, _ | .call .., hw, _ | .group _, hw, _ | .interpolation _, hw, _
  | .comprehension .., hw, _ => .pure fun _ => by simpa using hw

theorem Sim.structureValue (E : C.Early reduce other) : (node : Node) → C.trees node →
    C.Sim (fun v _ => C.Stage v) (structureValue reduce node)
      fun i => structureValue (other i) node
  | .literal kind raw, _ => (Sim.literalValue kind raw).mono fun _ _ => stage_of_every
  | .type marker, _ => .pure (by simp)
  | .map entries, hn => by
    simp only [structureValue]
    split
    · exact .pure fun _ => by simpa using hn
    · exact (Sim.table (Fill.structureEach E entries (C.hereditary _ hn))).map fun _ _ h => h
  | .array elements, hn => by
    simp only [structureValue]
    split
    · exact .pure (by simp)
    · exact (Sim.structureValues E elements (C.hereditary _ hn)).map fun vs _ h => by simpa using h
  | .block names children position, hn =>
    (Sim.table ((Fill.structureEach E children (C.hereditary _ hn)).block names position)).map
      fun _ _ h => h
  | .named name children position, hn =>
    (Sim.structureChildren E _ children hn (C.hereditary _ hn)).map
      fun v _ h => (Value.staged_map_singleton name v).2 h
  | .keyed key children position, hn => by
    have hparts : ∀ part ∈ key :: children, C.trees part := C.hereditary _ hn
    refine (Sim.computedName E (hparts key (List.mem_cons_self ..))).bind
      fun name s t _ hst => ?_
    refine ((Sim.structureChildren E _ children hn
      fun part h => hparts part (List.mem_cons_of_mem _ h)).map ?_) s t hst
    exact fun v _ h => (Value.staged_map_singleton name v).2 h
  | .operator _, _ | .segment _, _ => .pure (by simp)
  | .reference _, hn | .comprehension .., hn => .pure fun _ => by simpa using hn
  | .call .., hn | .group _, hn | .interpolation _, hn => Sim.deferred E hn

theorem Sim.structureValues (E : C.Early reduce other) : (nodes : List Node) →
    (∀ node ∈ nodes, C.trees node) →
    C.Sim (fun vs _ => ∀ v ∈ vs, C.Stage v) (structureValues reduce nodes)
      fun i => structureValues (other i) nodes
  | [], _ => .pure (by simp)
  | node :: rest, hn => by
    refine (Sim.structureValue E node (hn node (List.mem_cons_self ..))).bind fun v s t hv hst => ?_
    refine ((Sim.structureValues E rest fun node h => hn node (List.mem_cons_of_mem _ h)).map ?_)
      s t hst
    exact fun vs _ hvs => List.forall_mem_cons.2 ⟨hv, hvs⟩

end

end

end Coupling
end HclEval
