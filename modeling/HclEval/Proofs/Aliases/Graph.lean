import HclEval.Reduction.Reference
import HclEval.Reduction.Expression
import Mathlib.Logic.Relation
import Mathlib.Logic.Function.Iterate
import Mathlib.Data.List.Nodup
import Mathlib.Data.List.Perm.Subperm
import Mathlib.Tactic.Choose

/-!
Attributes of `locals` blocks that are literals or aliases of each other. From a name the aliases
lead to a literal, to a name that no block declares, or on and on; they lead on and on from every
name that they come back to.
-/
namespace HclEval

open Reduction

inductive Binding where
  | literal (kind : LiteralKind) (raw : String)
  | reference (name : String)

structure Declaration where
  name : String
  binding : Binding
  position : Option Position

structure LocalsBlock where
  declarations : List Declaration
  position : Option Position

def localReference (name : String) : Node := .reference [.segment "local", .segment name]

namespace Binding

def node : Binding → Node
  | literal kind raw => .literal kind raw
  | reference name => localReference name

def WellFormed : Binding → Prop
  | literal .number raw => ∃ x, Number.read? raw = some x
  | _ => True

end Binding

def Declaration.node (d : Declaration) : Node := .named d.name [d.binding.node] d.position

def LocalsBlock.node (block : LocalsBlock) : Node :=
  .block ["locals"] (block.declarations.map Declaration.node) block.position

section
variable (declarations : List Declaration)

def Declared (name : String) : Prop := ∃ d ∈ declarations, d.name = name

def Alias (name target : String) : Prop :=
  ∃ d ∈ declarations, d.name = name ∧ d.binding = .reference target

/-- The value that the aliases lead to from a name, if they come to an end. -/
inductive Leads : String → Value → Prop
  | literal {d : Declaration} {kind : LiteralKind} {raw : String} {v : Value} :
    d ∈ declarations → d.binding = .literal kind raw → literalValue kind raw = .ok v →
      Leads d.name v
  | through {name target : String} {v : Value} :
    Alias declarations name target → Leads target v → Leads name v
  | undeclared {name : String} :
    ¬ Declared declarations name → Leads name (.node (localReference name))

/-- There is always one more alias to follow. -/
def Endless (name : String) : Prop :=
  ∃ chain : ℕ → String, chain 0 = name ∧ ∀ i, Alias declarations (chain i) (chain (i + 1))

end

variable {declarations : List Declaration}

theorem exists_literalValue {kind : LiteralKind} {raw : String}
    (h : (Binding.literal kind raw).WellFormed) : ∃ v, literalValue kind raw = .ok v := by
  cases kind with
  | number =>
    obtain ⟨x, hx⟩ := h
    exact ⟨.number x, by rw [literalValue, hx]⟩
  | _ => exact ⟨_, rfl⟩

theorem literalValue_leaf {kind : LiteralKind} {raw : String} {v : Value}
    (h : literalValue kind raw = .ok v) : childSteps v = [] ∧ ∀ tree, v ≠ .node tree := by
  unfold literalValue at h
  split at h
  · cases h
    simp [childSteps]
  · split at h
    · cases h
      simp [childSteps]
    · cases h
  · cases h
    simp [childSteps]
  · cases h
    simp [childSteps]

theorem Alias.declared {name target : String} (h : Alias declarations name target) :
    Declared declarations name := by
  obtain ⟨d, hd, hname, -⟩ := h
  exact ⟨d, hd, hname⟩

theorem Leads.of_reaches {name target : String} {v : Value}
    (h : Relation.ReflTransGen (Alias declarations) name target)
    (hv : Leads declarations target v) : Leads declarations name v := by
  induction h using Relation.ReflTransGen.head_induction_on with
  | refl => exact hv
  | head halias _ ih => exact .through halias ih

theorem Leads.leaf_or_unresolved {name : String} {v : Value} (h : Leads declarations name v) :
    (childSteps v = [] ∧ ∀ tree, v ≠ .node tree) ∨
      ∃ last, v = .node (localReference last) ∧ ¬ Declared declarations last ∧
        Relation.ReflTransGen (Alias declarations) name last := by
  induction h with
  | literal _ _ hv => exact .inl (literalValue_leaf hv)
  | through halias _ ih =>
    refine ih.imp id ?_
    rintro ⟨last, hv, hlast, hreach⟩
    exact ⟨last, hv, hlast, .head halias hreach⟩
  | @undeclared name hname => exact .inr ⟨name, rfl, hname, .refl⟩

theorem endless_of_cycle {name : String}
    (h : Relation.TransGen (Alias declarations) name name) : Endless declarations name := by
  have hstep (z : { z // Relation.TransGen (Alias declarations) z name }) :
      ∃ w : { w // Relation.TransGen (Alias declarations) w name },
        Alias declarations z.1 w.1 := by
    obtain ⟨w, hzw, hw⟩ := Relation.TransGen.head'_iff.1 z.2
    rcases Relation.reflTransGen_iff_eq_or_transGen.1 hw with heq | htrans
    · exact ⟨⟨w, heq ▸ h⟩, hzw⟩
    · exact ⟨⟨w, htrans⟩, hzw⟩
  choose next hnext using hstep
  refine ⟨fun i => (next^[i] ⟨name, h⟩).1, rfl, fun i => ?_⟩
  simpa only [Function.iterate_succ_apply'] using hnext (next^[i] ⟨name, h⟩)

section
variable (hdistinct : (declarations.map Declaration.name).Nodup)
include hdistinct

theorem eq_of_name_eq {d d' : Declaration} (hd : d ∈ declarations) (hd' : d' ∈ declarations)
    (h : d.name = d'.name) : d = d' :=
  List.inj_on_of_nodup_map hdistinct hd hd' h

theorem Alias.unique {name target target' : String} (h : Alias declarations name target)
    (h' : Alias declarations name target') : target = target' := by
  obtain ⟨d, hd, hname, hbinding⟩ := h
  obtain ⟨d', hd', hname', hbinding'⟩ := h'
  obtain rfl := eq_of_name_eq hdistinct hd hd' (hname.trans hname'.symm)
  simpa [hbinding] using hbinding'

theorem Leads.not_endless {name : String} {v : Value} (h : Leads declarations name v) :
    ¬ Endless declarations name := by
  induction h with
  | @literal d kind raw v hd hbinding _ =>
    rintro ⟨chain, hstart, hchain⟩
    obtain ⟨d', hd', hname, halias⟩ := hchain 0
    obtain rfl := eq_of_name_eq hdistinct hd hd' (hstart.symm.trans hname.symm)
    simp [hbinding] at halias
  | through halias _ ih =>
    rintro ⟨chain, hstart, hchain⟩
    refine ih ⟨fun i => chain (i + 1), ?_, fun i => hchain (i + 1)⟩
    have hfirst := hchain 0
    rw [hstart] at hfirst
    exact Alias.unique hdistinct hfirst halias
  | undeclared hname =>
    rintro ⟨chain, hstart, hchain⟩
    have hfirst := hchain 0
    rw [hstart] at hfirst
    exact hname hfirst.declared

theorem cycle_of_reaches {name last : String}
    (hcycle : Relation.TransGen (Alias declarations) name name)
    (h : Relation.ReflTransGen (Alias declarations) name last) :
    Relation.TransGen (Alias declarations) last last := by
  induction h with
  | refl => exact hcycle
  | tail _ hlast ih =>
    obtain ⟨next, hnext, hback⟩ := Relation.TransGen.head'_iff.1 ih
    obtain rfl := Alias.unique hdistinct hnext hlast
    exact .tail' hback hlast

end

/-- References to local names in progress, innermost first: the first was written at a name, and
the aliases lead from there through all of them to the name that is read next. -/
structure InProgress (declarations : List Declaration) (root name : String)
    (resolving : List String) : Prop where
  nodup : resolving.Nodup
  declared : ∀ y ∈ resolving, Declared declarations y
  rootDeclared : Declared declarations root
  reaches : Relation.ReflTransGen (Alias declarations) root name
  between : ∀ y ∈ resolving, Relation.TransGen (Alias declarations) root y ∧
    Relation.ReflTransGen (Alias declarations) y name

theorem length_le_of_declared {names : List String} (hnodup : names.Nodup)
    (h : ∀ y ∈ names, Declared declarations y) : names.length ≤ declarations.length := by
  have hsub : names ⊆ declarations.map Declaration.name := fun y hy => by
    obtain ⟨d, hd, hname⟩ := h y hy
    exact List.mem_map.2 ⟨d, hd, hname⟩
  have hlength := (List.subperm_of_subset hnodup hsub).length_le
  rwa [List.length_map] at hlength

namespace InProgress

variable {root name : String} {resolving : List String}

theorem length_lt (hdistinct : (declarations.map Declaration.name).Nodup) {target : String}
    (h : InProgress declarations root name resolving)
    (htarget : Relation.TransGen (Alias declarations) name target) (hnew : target ∉ resolving) :
    resolving.length < declarations.length := by
  by_cases hdeclared : Declared declarations target
  · exact length_le_of_declared (List.nodup_cons.2 ⟨hnew, h.nodup⟩)
      (List.forall_mem_cons.2 ⟨hdeclared, h.declared⟩)
  · -- The aliases come to an end, so they never come back to where they started.
    have hroot : root ∉ resolving := fun hmem => by
      have hcycle := cycle_of_reaches hdistinct (h.between root hmem).1
        (h.reaches.trans htarget.to_reflTransGen)
      obtain ⟨next, hnext, -⟩ := Relation.TransGen.head'_iff.1 hcycle
      exact hdeclared hnext.declared
    exact length_le_of_declared (List.nodup_cons.2 ⟨hroot, h.nodup⟩)
      (List.forall_mem_cons.2 ⟨h.rootDeclared, h.declared⟩)

theorem push (h : InProgress declarations root name resolving) {target : String}
    (htarget : Relation.TransGen (Alias declarations) name target)
    (hdeclared : Declared declarations target) (hnew : target ∉ resolving) :
    InProgress declarations root target (target :: resolving) where
  nodup := List.nodup_cons.2 ⟨hnew, h.nodup⟩
  declared := List.forall_mem_cons.2 ⟨hdeclared, h.declared⟩
  rootDeclared := h.rootDeclared
  reaches := h.reaches.trans htarget.to_reflTransGen
  between := List.forall_mem_cons.2 ⟨⟨.trans_right h.reaches htarget, .refl⟩, fun y hy =>
    ⟨(h.between y hy).1, (h.between y hy).2.trans htarget.to_reflTransGen⟩⟩

theorem cycle (h : InProgress declarations root name resolving) {target : String}
    (htarget : Relation.TransGen (Alias declarations) name target) (hmem : target ∈ resolving) :
    Relation.TransGen (Alias declarations) target target :=
  .trans_right (h.between target hmem).2 htarget

end InProgress
end HclEval
