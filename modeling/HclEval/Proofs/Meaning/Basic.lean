import HclEval.Proofs.Coupling.Evaluation

/-!
What an expression means in a document, whatever has been evaluated there already. References are
read in copies of what the first pass built, nothing is stored and nothing is found to be a cycle;
where that comes to an end it gives the value that both passes give, in whatever order the second
one evaluates the document.
-/
namespace HclEval

open Filter Reduction

namespace Node

def isComprehension : Node → Bool
  | comprehension .. => true
  | _ => false

def readsData : Node → Bool
  | reference (segment "data" :: _) => true
  | _ => false

/-- Nowhere in a tree is there a `for` expression or a reference that starts with `data`. -/
def Plain : Node → Prop := Every fun node => node.isComprehension = false ∧ node.readsData = false

theorem hereditary_plain : Hereditary Plain := hereditary_every _

end Node

/-- A function of its arguments alone, whose results hold no trees but those of its arguments. -/
structure PureFunction (f : Function) : Prop where
  history : ∀ calls values, f calls values = f [] values
  conservative : ∀ {values v}, f [] values = .ok v →
    ∀ p : Node → Prop, (∀ u ∈ values, u.Every p) → v.Every p

/-- Variables hold no trees, and functions make none. -/
structure Setting.Pure (setting : Setting) : Prop where
  vars : (Value.map setting.vars).Every fun _ => False
  functions : ∀ {name f}, setting.functions.get? name = some f → PureFunction f

/-- How far a reference has been read: in a value by itself, or in a copy from the document. -/
inductive View where
  | value (v : Value)
  | entry (v : Value)
  | locals
  | vars

namespace Reduction

variable (reduce : Node → Eval Value) (setting : Setting) (document : Document)

def entryAt? (path : Path) : Option View := (document.slot? path).map .entry

def beginning? (name : String) : Option View :=
  match name with
  | "local" => some .locals
  | "var" => some .vars
  | "data" => none
  | _ => (Table.get? document name).map .entry

def variableView? (accessor : Accessor) : Option View := do
  match ← variableAt? setting document accessor with
  | .value v => some (.value v)
  | .slot path => entryAt? document path
  | _ => none

def onward (accessor : Accessor) : View → Eval (Option View)
  | .value v => return ((← force reduce v).select? accessor).map .value
  | .entry v => do
    let v ← force reduce v
    return ((v.stepTo? accessor).bind v.child?).map .entry
  | .locals =>
    match accessor with
    | .name name => pure ((document.localPath? name).bind (entryAt? document))
    | .index x => pure (((Value.map document.locals).select? (.index x)).map .value)
  | .vars => pure (variableView? setting document accessor)

def arrive : View → Eval Value
  | .value v | .entry v => reduceValue reduce v
  | .locals => reduceValue reduce (.map document.locals)
  | .vars => reduceValue reduce (.map setting.vars)

def read : Option View → List Node → Eval (Option Value)
  | none, _ => pure none
  | some view, [] => return some (← arrive reduce setting document view)
  | some view, segment :: rest => do
    let some accessor ← accessor? reduce segment | return none
    read (← onward reduce setting document accessor view) rest

def readSegments : List Node → Eval (Option Value)
  | [] => pure none
  | .segment name :: rest => read reduce setting document (beginning? document name) rest
  | first :: rest => do
    let value ← reduce first
    read reduce setting document (if value.isUnresolved then none else some (.value value)) rest

def readReference (segments : List Node) : Eval Value := do
  match ← readSegments reduce setting document segments with
  | some value => pure value
  | none => pure (.node (.reference segments))

def answer (name : String) (values : List Value) : Eval Value := do
  let some function := setting.functions.get? name | return .null
  match function [] values with
  | .ok value => pure value
  | .error cause => Eval.fail (.functionFailed name cause)

/-- What a node means, down to a depth. -/
def meaning : (depth : ℕ) → Node → Eval Value
  | 0, _ => throw .exhausted
  | depth + 1, node =>
    stepWith (readReference (meaning depth) setting document) (answer setting) (meaning depth) node

end Reduction

/-- In a document a tree means a value: it comes to it from some depth on. -/
def Means (setting : Setting) (document : Document) (tree : Node) (v : Value) : Prop :=
  ∀ᶠ i in atTop, (meaning setting document i tree).outcome {} = (.ok v, {})

variable {setting : Setting} {document : Document}

theorem Means.unique {tree : Node} {v w : Value} (hv : Means setting document tree v)
    (hw : Means setting document tree w) : v = w := by
  obtain ⟨i, hi, hi'⟩ := (hv.and hw).exists
  rw [hi] at hi'
  simpa using hi'

structure Unmet (setting : Setting) (document : Document) (tree : Node) : Prop where
  plain : tree.Plain
  isReference : tree.isReference = true
  means : Means setting document tree (.node tree)

/-- A value in which nothing is left to evaluate. -/
abbrev Settled (setting : Setting) (document : Document) (v : Value) : Prop :=
  v.Every (Unmet setting document)

def becoming (setting : Setting) (document : Document) : Value.Becoming := fun tree v =>
  Means setting document tree v ∧ Settled setting document v

theorem Settled.eq_of_fills {v w : Value} (hv : Settled setting document v)
    (h : v.Fills (becoming setting document) w) : w = v := by
  induction v using Value.induction generalizing w with
  | list items ih =>
    obtain ⟨items', rfl, hitems⟩ := (Value.fills_list ..).1 h
    rw [Settled, Value.every_list] at hv
    have heq : List.Forall₂ (fun u u' => u = u') items items' :=
      ((List.forall₂_and_left ..).2 ⟨fun u hu => hu, hitems⟩).imp
        fun u u' huu => (ih u huu.1 (hv u huu.1) huu.2).symm
    rw [List.forall₂_eq_eq_eq] at heq
    rw [heq]
  | map entries ih =>
    obtain ⟨entries', rfl, hentries⟩ := (Value.fills_map ..).1 h
    rw [Settled, Value.every_map] at hv
    have heq : List.Forall₂ (fun e e' => e = e') entries entries' :=
      ((List.forall₂_and_left ..).2 ⟨fun e he => he, hentries⟩).imp
        fun e e' hee => Prod.ext hee.2.1.symm (ih e hee.1 (hv e hee.1) hee.2.2).symm
    rw [List.forall₂_eq_eq_eq] at heq
    rw [heq]
  | node tree =>
    rcases (Value.fills_node ..).1 h with hw | hw
    · exact hw
    · exact hw.1.unique ((Value.every_node _).1 hv).means
  | _ => simpa using h

theorem eq_of_forall₂ {α β : Type} {r : α → β → Prop} {xs : List α} {ys zs : List β}
    (hy : List.Forall₂ r xs ys) (hz : List.Forall₂ r xs zs)
    (h : ∀ x ∈ xs, ∀ y ∈ ys, ∀ z ∈ zs, r x y → r x z → y = z) : ys = zs := by
  induction hy generalizing zs with
  | nil =>
    cases hz
    rfl
  | cons hxy _ ih =>
    cases hz with
    | cons hxz hz =>
      have hhead := h _ (List.mem_cons_self ..) _ (List.mem_cons_self ..) _ (List.mem_cons_self ..)
        hxy hxz
      have htail := ih hz fun x hx y hy z hz => h x (List.mem_cons_of_mem _ hx) y
        (List.mem_cons_of_mem _ hy) z (List.mem_cons_of_mem _ hz)
      rw [hhead, htail]

theorem imp_of_mem_forall₂ {α β : Type} {r r' : α → β → Prop} {xs : List α} {ys : List β}
    (h : List.Forall₂ r xs ys) (hr : ∀ x ∈ xs, ∀ y ∈ ys, r x y → r' x y) :
    List.Forall₂ r' xs ys := by
  induction h with
  | nil => exact .nil
  | cons head _ ih =>
    refine .cons (hr _ (List.mem_cons_self ..) _ (List.mem_cons_self ..) head) (ih ?_)
    exact fun x hx y hy => hr x (List.mem_cons_of_mem _ hx) y (List.mem_cons_of_mem _ hy)

/-- There is one way to fill in a value completely. -/
theorem Settled.unique {u v w : Value} (hv : Settled setting document v)
    (hw : Settled setting document w) (huv : u.Fills (becoming setting document) v)
    (huw : u.Fills (becoming setting document) w) : v = w := by
  induction u using Value.induction generalizing v w with
  | list items ih =>
    obtain ⟨items', rfl, hitems⟩ := (Value.fills_list ..).1 huv
    obtain ⟨items'', rfl, hitems'⟩ := (Value.fills_list ..).1 huw
    rw [Settled, Value.every_list] at hv hw
    rw [eq_of_forall₂ hitems hitems' fun u hu u' hu' u'' hu'' => ih u hu (hv u' hu') (hw u'' hu'')]
  | map entries ih =>
    obtain ⟨entries', rfl, hentries⟩ := (Value.fills_map ..).1 huv
    obtain ⟨entries'', rfl, hentries'⟩ := (Value.fills_map ..).1 huw
    rw [Settled, Value.every_map] at hv hw
    rw [eq_of_forall₂ hentries hentries' fun e he e' he' e'' he'' h' h'' =>
      Prod.ext (h'.1.trans h''.1.symm) (ih e he (hv e' he') (hw e'' he'') h'.2 h''.2)]
  | node tree =>
    rcases (Value.fills_node ..).1 huv with rfl | htree
    · exact (hv.eq_of_fills huw).symm
    · rcases (Value.fills_node ..).1 huw with rfl | htree'
      · exact hw.eq_of_fills huv
      · exact htree.1.unique htree'.1
  | _ => simp_all

theorem closed_becoming : (becoming setting document).Closed := by
  intro tree v w hv hvw
  rw [hv.2.eq_of_fills hvw]
  exact hv

theorem eventually_reduceItems {items items' : List Value}
    (h : List.Forall₂ (fun v w => ∀ᶠ i in atTop,
      (reduceValue (meaning setting document i) v).outcome {} = (.ok w, {})) items items') :
    ∀ᶠ i in atTop, (reduceItems (meaning setting document i) items).outcome {} =
      (.ok items', {}) := by
  induction h with
  | nil => exact .of_forall fun _ => rfl
  | cons head _ ih =>
    filter_upwards [head, ih] with i hi hrest
    rw [reduceItems, Eval.outcome_bind_ok hi, Eval.outcome_bind_ok hrest]
    rfl

theorem eventually_reduceEntries {entries entries' : List (String × Value)}
    (h : List.Forall₂ (fun e e' => e'.1 = e.1 ∧ ∀ᶠ i in atTop,
      (reduceValue (meaning setting document i) e.2).outcome {} = (.ok e'.2, {}))
        entries entries') :
    ∀ᶠ i in atTop, (reduceEntries (meaning setting document i) entries).outcome {} =
      (.ok entries', {}) := by
  induction h with
  | nil => exact .of_forall fun _ => rfl
  | @cons e e' _ _ head _ ih =>
    filter_upwards [head.2, ih] with i hi hrest
    rw [reduceEntries, Eval.outcome_bind_ok hi, Eval.outcome_bind_ok hrest, ← head.1]
    rfl

theorem eventually_reduceValue {v w : Value} (h : v.Fills (becoming setting document) w)
    (hw : Settled setting document w) :
    ∀ᶠ i in atTop, (reduceValue (meaning setting document i) v).outcome {} = (.ok w, {}) := by
  induction v using Value.induction generalizing w with
  | list items ih =>
    obtain ⟨items', rfl, hitems⟩ := (Value.fills_list ..).1 h
    rw [Settled, Value.every_list] at hw
    have hread := eventually_reduceItems
      (imp_of_mem_forall₂ hitems fun v hv w hmem hvw => ih v hv hvw (hw w hmem))
    filter_upwards [hread] with i hi
    rw [reduceValue, Eval.outcome_bind_ok hi]
    rfl
  | map entries ih =>
    obtain ⟨entries', rfl, hentries⟩ := (Value.fills_map ..).1 h
    rw [Settled, Value.every_map] at hw
    have hread := eventually_reduceEntries (imp_of_mem_forall₂ hentries
      fun e he e' hmem hee => ⟨hee.1, ih e he hee.2 (hw e' hmem)⟩)
    filter_upwards [hread] with i hi
    rw [reduceValue, Eval.outcome_bind_ok hi]
    rfl
  | node tree =>
    rcases (Value.fills_node ..).1 h with rfl | htree
    · exact ((Value.every_node _).1 hw).means
    · exact htree.1
  | _ =>
    obtain rfl : w = _ := by simpa using h
    exact .of_forall fun _ => rfl

end HclEval
