import HclEval.Proofs.Expressions.Constants
import HclEval.Proofs.Meaning.Building
import HclEval.Proofs.Resolution
import HclEval.Session

/-!
Documents of literals. A tree of literals, arrays and maps with distinct names is written down for
one value. The first pass converts it to that value without asking for anything, and the second
finds no tree in it; so whatever there is of variables, functions and lookups, a document of such
attributes comes out as it is written.
-/
namespace HclEval

open Reduction

/-- The value that the text of a literal stands for. -/
inductive LiteralKind.Denotes : LiteralKind → String → Value → Prop
  | string (text : String) : Denotes .string text (.string text)
  | number {raw : String} {x : Number} (read : Number.read? raw = some x) :
    Denotes .number raw (.number x)
  | boolean (raw : String) : Denotes .boolean raw (.bool (raw == "true"))
  | null (raw : String) : Denotes .null raw .null

theorem LiteralKind.Denotes.literalValue {kind : LiteralKind} {raw : String} {v : Value}
    (h : kind.Denotes raw v) : literalValue kind raw = .ok v := by
  cases h with
  | number read => rw [Reduction.literalValue, read]
  | _ => rfl

namespace Node

inductive AttributeOf (gives : Node → Value → Prop) : Node → String × Value → Prop
  | named {name : String} {child : Node} {position : Option Position} {v : Value}
      (value : gives child v) : AttributeOf gives (.named name [child] position) (name, v)

/-- A tree of literals, arrays and maps, and the value it is written down for. An array without
elements stands for `null`. -/
inductive Written : Node → Value → Prop
  | literal {kind : LiteralKind} {raw : String} {v : Value}
      (value : kind.Denotes raw v) : Written (.literal kind raw) v
  | nothing : Written (.array []) .null
  | array {elements : List Node} {items : List Value} (nonempty : elements ≠ [])
      (each : List.Forall₂ Written elements items) : Written (.array elements) (.list items)
  | map {attributes : List Node} {entries : Table Value}
      (each : List.Forall₂ (AttributeOf Written) attributes entries)
      (distinct : entries.keys.Nodup) : Written (.map attributes) (.map entries)

@[elab_as_elim]
theorem Written.induction {motive : Node → Value → Prop}
    (literal : ∀ {kind raw v}, kind.Denotes raw v → motive (.literal kind raw) v)
    (nothing : motive (.array []) .null)
    (array : ∀ {elements items}, elements ≠ [] → List.Forall₂ motive elements items →
      motive (.array elements) (.list items))
    (map : ∀ {attributes entries}, List.Forall₂ (AttributeOf motive) attributes entries →
      (Table.keys entries).Nodup → motive (.map attributes) (.map entries))
    {node : Node} {v : Value} (h : node.Written v) : motive node v :=
  @Written.rec (fun node v _ => motive node v)
    (fun elements items _ => List.Forall₂ motive elements items)
    (fun attributes entries _ => List.Forall₂ (AttributeOf motive) attributes entries)
    (fun node entry _ => AttributeOf motive node entry)
    literal nothing (fun nonempty _ ih => array nonempty ih) (fun _ distinct ih => map ih distinct)
    .nil (fun _ _ => .cons) .nil (fun _ _ => .cons) (fun _ => .named) node v h

end Node

section
variable {gives : Node → Value → Prop} {attributes : List Node} {entries : Table Value}
  (h : List.Forall₂ (Node.AttributeOf gives) attributes entries)
include h

theorem any_isKeyed_of_attributes : attributes.any Node.isKeyed = false := by
  induction h with
  | nil => rfl
  | cons first _ ih =>
    cases first
    rw [List.any_cons, ih]
    rfl

theorem outcome_structureEach_of_attributes {reduce : Node → Eval Value}
    (hgives : ∀ {child v}, gives child v → ∀ whole s,
      (structureOnly reduce whole child).outcome s = (.ok v, s)) (table : Table Value)
    (hdistinct : (table ++ entries).keys.Nodup) (s : State) :
    (structureEach reduce attributes).outcome table s = ((.ok (), table ++ entries), s) := by
  induction h generalizing table with
  | nil =>
    rw [List.append_nil]
    rfl
  | @cons _ _ attributes entries first _ ih =>
    cases first with
    | @named name child position v value =>
      have hfresh : name ∉ table.keys := by
        intro hmem
        simp only [Table.keys, List.map_append, List.map_cons] at hdistinct
        exact (List.nodup_append.mp hdistinct).2.2 name hmem name (List.mem_cons_self ..) rfl
      have happend : table.insert name v ++ entries = table ++ (name, v) :: entries := by
        rw [Table.insert_of_notMem hfresh, List.append_assoc, List.singleton_append]
      rw [structureEach, Build.outcome_bind, outcome_named, structureChildren, hgives value]
      exact happend ▸ ih (table.insert name v) (happend ▸ hdistinct)

theorem forall_mem_of_attributes {p : Value → Prop} (hgives : ∀ {child v}, gives child v → p v) :
    ∀ e ∈ entries, p e.2 := by
  induction h with
  | nil => exact nofun
  | cons first _ ih =>
    cases first with
    | named value => exact List.forall_mem_cons.mpr ⟨hgives value, ih⟩

theorem sizeEntries_le_of_attributes (hgives : ∀ {child v}, gives child v → v.size ≤ child.size) :
    Value.sizeEntries entries ≤ Node.sizeAll attributes := by
  induction h with
  | nil => exact Nat.le_refl 0
  | cons first _ ih =>
    cases first with
    | named value =>
      have hfirst := hgives value
      simp only [Value.sizeEntries, Node.sizeAll, Node.size]
      omega

end

namespace Node.Written

variable {node : Node} {v : Value}

theorem isPlain (h : node.Written v) : node.isPlain = true := by
  cases h <;> rfl

theorem outcome_structureValue (reduce : Node → Eval Value) (h : node.Written v) :
    ∀ s, (structureValue reduce node).outcome s = (.ok v, s) := by
  -- an attribute converts its tree only if that is plain, so this is carried along
  suffices node.isPlain = true ∧ ∀ s, (structureValue reduce node).outcome s = (.ok v, s) from
    this.2
  refine Written.induction ?literal ?nothing ?array ?map h
  case literal =>
    intro kind raw v value
    refine ⟨rfl, fun s => ?_⟩
    rw [structureValue, value.literalValue]
    rfl
  case nothing => exact ⟨rfl, fun _ => rfl⟩
  case array =>
    intro elements items nonempty each
    have hitems (s : State) : (structureValues reduce elements).outcome s = (.ok items, s) := by
      clear nonempty
      induction each with
      | nil => rfl
      | cons first _ ih =>
        rw [structureValues, Eval.outcome_bind_ok (first.2 s), Eval.outcome_bind_ok ih]
        rfl
    refine ⟨rfl, fun s => ?_⟩
    rw [structureValue, if_neg (by simpa using nonempty), Eval.outcome_bind_ok (hitems s)]
    rfl
  case map =>
    intro attributes entries each distinct
    have hentries (s : State) :=
      outcome_structureEach_of_attributes each (fun hchild whole s => by
        rw [structureOnly_of_isPlain reduce whole hchild.1]
        exact hchild.2 s) [] distinct s
    have htable (s : State) : (structureEach reduce attributes).table.outcome s =
        (.ok entries, s) := by
      rw [Build.outcome_table, hentries]
      rfl
    refine ⟨rfl, fun s => ?_⟩
    rw [structureValue, any_isKeyed_of_attributes each, if_neg Bool.false_ne_true,
      Eval.outcome_bind_ok (htable s)]
    rfl

theorem outcome_structureOnly (reduce : Node → Eval Value) (h : node.Written v) (whole : Node)
    (s : State) : (structureOnly reduce whole node).outcome s = (.ok v, s) := by
  rw [structureOnly_of_isPlain reduce whole h.isPlain]
  exact h.outcome_structureValue reduce s

theorem free (h : node.Written v) : v.Every fun _ => False := by
  refine Written.induction ?literal ?nothing ?array ?map h
  case literal =>
    intro kind raw v value
    cases value <;> simp
  case nothing => exact Value.every_null
  case array =>
    intro elements items nonempty each
    clear nonempty
    rw [Value.Every]
    induction each with
    | nil => trivial
    | cons first _ ih => exact ⟨first, ih⟩
  case map =>
    intro attributes entries each _
    exact (Value.every_map entries).mpr (forall_mem_of_attributes each id)

theorem size_le (h : node.Written v) : v.size ≤ node.size := by
  refine Written.induction ?literal ?nothing ?array ?map h
  case literal =>
    intro kind raw v value
    cases value <;> exact Nat.le_refl 1
  case nothing => exact Nat.le_refl 1
  case array =>
    intro elements items nonempty each
    clear nonempty
    suffices Value.sizeItems items ≤ Node.sizeAll elements from Nat.succ_le_succ this
    induction each with
    | nil => exact Nat.le_refl 0
    | cons first _ ih => exact Nat.add_le_add first ih
  case map =>
    intro attributes entries each _
    exact Nat.succ_le_succ (sizeEntries_le_of_attributes each id)

end Node.Written

theorem outcome_resolveDocument_of_free (setting : Setting) {depth : ℕ} {s : State}
    (hfree : (Value.map s.document).Every fun _ => False)
    (hdepth : Value.sizeEntries s.document ≤ depth) :
    (resolveDocument setting depth).outcome s = (.ok (), s) := by
  rw [resolveDocument, Eval.outcome_get_bind]
  refine outcome_forM_of_forall fun key hkey => ?_
  obtain ⟨e, he, rfl⟩ := List.mem_map.mp (mem_resolutionOrder.mp hkey)
  obtain ⟨v, hv⟩ := Table.exists_get?_of_mem he
  have hmem := Table.mem_of_get? hv
  exact outcome_settle_of_free _ ((Document.slot?_key ..).trans hv)
    ((Value.every_map _).mp hfree _ hmem) ((Value.size_le_sizeEntries hmem).trans hdepth)

theorem sizeAll_le_depthFor (setting : Setting) (nodes : List Node) :
    Node.sizeAll nodes ≤ depthFor setting nodes := by
  have hnested : Node.sizeAll nodes ≤ Node.sizeAll nodes + variablesSize setting.vars + 1024 := by
    omega
  exact hnested.trans (Nat.le_mul_of_pos_left _ (Nat.succ_pos _))

/-- A document of attributes with distinct names, whose trees are written down for values, comes
out as those values under those names, whatever else there is in the session: nothing is called or
looked up, nothing is changed, and no reference is needed. -/
theorem evaluate_written (session : Session) {nodes : List Node} {document : Document}
    (hnodes : List.Forall₂ (Node.AttributeOf Node.Written) nodes document)
    (hdistinct : (Table.keys document).Nodup) :
    session.evaluate nodes = (.ok document, session) := by
  set setting := session.setting
  set depth := depthFor setting nodes
  set placed : State := { calls := session.calls, document }
  have hstructure : (structureDocument setting depth nodes).outcome { calls := session.calls } =
      (.ok (), placed) :=
    outcome_structureDocument (outcome_structureEach_of_attributes hnodes
      (fun hchild => hchild.outcome_structureOnly _) [] hdistinct _)
  have hfree : (Value.map document).Every fun _ => False :=
    (Value.every_map document).mpr (forall_mem_of_attributes hnodes fun hchild => hchild.free)
  have hdepth : Value.sizeEntries document ≤ depth :=
    (sizeEntries_le_of_attributes hnodes fun hchild => hchild.size_le).trans
      (sizeAll_le_depthFor setting nodes)
  have hresolve : (resolveDocument setting depth).outcome placed = (.ok (), placed) :=
    outcome_resolveDocument_of_free setting hfree hdepth
  have hrun : run setting session.calls nodes = (.ok (), placed) :=
    (Eval.outcome_bind_ok hstructure _).trans hresolve
  simp only [Session.evaluate]
  rw [hrun]

def cautiousSession : Session where
  functions := [("now", fun _ _ => .ok .null)]
  lookups := [("now", fun _ _ => .ok [])]
  vars := [("a", .null)]
  options := { ignoreErrors := true, maxDepth := 0 }

def nestedLiterals : List Node :=
  [.named "a" [.array []] none,
    .named "locals" [.map [.named "b" [.array [.array [], .string "x"]] none,
      .named "a" [.array [.map [], .number "2.50", .boolean true]] none]] none]

def nestedDocument : Document :=
  [("a", .null), ("locals", .map [("b", .list [.null, .string "x"]),
    ("a", .list [.map [], .number (.finite false (5 * Number.one / 2)), .bool true])])]

theorem nestedLiterals_written :
    List.Forall₂ (Node.AttributeOf Node.Written) nestedLiterals nestedDocument := by
  have hread : Number.read? "2.50" = some (.finite false (5 * Number.one / 2)) := by decide +kernel
  have hnumber : (Node.number "2.50").Written (.number (.finite false (5 * Number.one / 2))) :=
    .literal (.number hread)
  have hb : (Node.array [.array [], .string "x"]).Written (.list [.null, .string "x"]) :=
    .array (by simp) (.cons .nothing (.cons (.literal (.string "x")) .nil))
  have ha : (Node.array [.map [], .number "2.50", .boolean true]).Written
      (.list [.map [], .number (.finite false (5 * Number.one / 2)), .bool true]) :=
    .array (by simp)
      (.cons (.map .nil (by decide)) (.cons hnumber (.cons (.literal (.boolean "true")) .nil)))
  exact .cons (.named .nothing)
    (.cons (.named (.map (.cons (.named hb) (.cons (.named ha) .nil)) (by decide))) .nil)

theorem evaluate_written_nested :
    List.Forall₂ (Node.AttributeOf Node.Written) nestedLiterals nestedDocument ∧
      (Table.keys nestedDocument).Nodup ∧
        cautiousSession.evaluate nestedLiterals = (.ok nestedDocument, cautiousSession) := by
  have hdistinct : (Table.keys nestedDocument).Nodup := by decide
  exact ⟨nestedLiterals_written, hdistinct,
    evaluate_written cautiousSession nestedLiterals_written hdistinct⟩

end HclEval
