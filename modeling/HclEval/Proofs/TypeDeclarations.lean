import HclEval.Proofs.LiteralDocuments
import HclEval.Proofs.IgnoredErrors
import HclEval.Proofs.Expressions.Shape
import HclEval.Proofs.PlainTexts

/-!
Type declarations. The words of types are declarations wherever they are an operand of the setting
`type`, and so are calls of those that are made of others. A declaration is read as it is written,
kept through both passes and written again.
-/
namespace HclEval

open Reduction

namespace TypeKind

def keywords : List (String × TypeKind) :=
  [("any", any), ("string", string), ("number", number), ("bool", bool), ("boolean", bool)]

def constructors : List (String × TypeKind) := [("list", list), ("map", map), ("set", set)]

theorem ofKeyword?_eq_some_iff {word : String} {kind : TypeKind} :
    ofKeyword? word = some kind ↔ (word, kind) ∈ keywords := by
  unfold ofKeyword?
  split <;> simp_all [keywords, eq_comm]

theorem ofConstructor?_eq_some_iff {word : String} {kind : TypeKind} :
    ofConstructor? word = some kind ↔ (word, kind) ∈ constructors := by
  unfold ofConstructor?
  split <;> simp_all [constructors, eq_comm]

end TypeKind

namespace TypeMarker

/-- The declarations that can be written: only lists, maps and sets are made of others. -/
inductive Declarable : TypeMarker → Prop
  | bare (kind : TypeKind) : Declarable (.bare kind)
  | applied {kind : TypeKind} {element : TypeMarker} (h : (kind.word, kind) ∈ TypeKind.constructors)
      (helement : Declarable element) : Declarable (.applied kind element)

def expr : TypeMarker → Source.Expr
  | bare kind => .variable kind.word
  | applied kind element => .call kind.word [element.expr] false

end TypeMarker

namespace Source

/-- A keyword, a constructor's word, or a call of a constructor with no argument or with one that
is a declaration itself. -/
inductive Expr.Declares : Expr → TypeMarker → Prop
  | keyword {word : String} {kind : TypeKind} (h : (word, kind) ∈ TypeKind.keywords) :
    Declares (.variable word) (.bare kind)
  | constructor {word : String} {kind : TypeKind} (h : (word, kind) ∈ TypeKind.constructors) :
    Declares (.variable word) (.bare kind)
  | call {word : String} {kind : TypeKind} {spread : Bool}
      (h : (word, kind) ∈ TypeKind.constructors) : Declares (.call word [] spread) (.bare kind)
  | element {word : String} {kind : TypeKind} {argument : Expr} {element : TypeMarker}
      {spread : Bool} (h : (word, kind) ∈ TypeKind.constructors)
      (hargument : Declares argument element) :
    Declares (.call word [argument] spread) (.applied kind element)

theorem typeMarker?_variable_eq_some_iff {word : String} {marker : TypeMarker} :
    (Expr.variable word).typeMarker? = some marker ↔
      ∃ kind, ((word, kind) ∈ TypeKind.keywords ∨ (word, kind) ∈ TypeKind.constructors) ∧
        marker = .bare kind := by
  have hapart : ∀ kind ∈ TypeKind.ofKeyword? word, TypeKind.ofConstructor? word = none := by
    intro kind hkind
    have hmem := TypeKind.ofKeyword?_eq_some_iff.mp hkind
    simp only [TypeKind.keywords, List.mem_cons, List.not_mem_nil, or_false, Prod.mk.injEq] at hmem
    rcases hmem with ⟨rfl, -⟩ | ⟨rfl, -⟩ | ⟨rfl, -⟩ | ⟨rfl, -⟩ | ⟨rfl, -⟩ <;> rfl
  rw [Expr.typeMarker?]
  simp only [← TypeKind.ofKeyword?_eq_some_iff, ← TypeKind.ofConstructor?_eq_some_iff]
  cases hkeyword : TypeKind.ofKeyword? word with
  | none => simp [eq_comm]
  | some kind => simp [hapart kind hkeyword, eq_comm]

theorem typeMarker?_call_eq_some_iff {word : String} {arguments : List Expr} {spread : Bool}
    {marker : TypeMarker} :
    (Expr.call word arguments spread).typeMarker? = some marker ↔
      ∃ kind, (word, kind) ∈ TypeKind.constructors ∧
        (arguments = [] ∧ marker = .bare kind ∨ ∃ argument element, arguments = [argument] ∧
          argument.typeMarker? = some element ∧ marker = .applied kind element) := by
  rw [Expr.typeMarker?]
  simp only [← TypeKind.ofConstructor?_eq_some_iff, Option.bind_eq_bind, Option.bind_eq_some_iff]
  refine exists_congr fun kind => and_congr_right fun _ => ?_
  match arguments with
  | [] => simp [elementMarker?, eq_comm]
  | [argument] => simp [elementMarker?, eq_comm]
  | _ :: _ :: _ => simp [elementMarker?]

theorem typeMarker?_eq_some_iff {expr : Expr} {marker : TypeMarker} :
    expr.typeMarker? = some marker ↔ expr.Declares marker := by
  constructor
  · intro h
    induction marker generalizing expr with
    | bare kind =>
      cases expr with
      | «variable» word =>
        obtain ⟨_, hword | hword, ⟨⟩⟩ := typeMarker?_variable_eq_some_iff.mp h
        · exact .keyword hword
        · exact .constructor hword
      | call word arguments spread =>
        obtain ⟨_, hword, ⟨rfl, ⟨⟩⟩ | ⟨_, _, _, _, ⟨⟩⟩⟩ := typeMarker?_call_eq_some_iff.mp h
        exact .call hword
      | _ => cases h
    | applied kind element ih =>
      cases expr with
      | «variable» word =>
        obtain ⟨_, _, ⟨⟩⟩ := typeMarker?_variable_eq_some_iff.mp h
      | call word arguments spread =>
        obtain ⟨_, hword, ⟨_, ⟨⟩⟩ | ⟨_, _, rfl, hargument, ⟨⟩⟩⟩ :=
          typeMarker?_call_eq_some_iff.mp h
        exact .element hword (ih hargument)
      | _ => cases h
  · intro h
    induction h with
    | keyword h => exact typeMarker?_variable_eq_some_iff.mpr ⟨_, .inl h, rfl⟩
    | constructor h => exact typeMarker?_variable_eq_some_iff.mpr ⟨_, .inr h, rfl⟩
    | call h => exact typeMarker?_call_eq_some_iff.mpr ⟨_, h, .inl ⟨rfl, rfl⟩⟩
    | element h _ ih =>
      exact typeMarker?_call_eq_some_iff.mpr ⟨_, h, .inr ⟨_, _, rfl, ih, rfl⟩⟩

theorem nodes_of_declares {scope : Scope} (hscope : scope.declaresType = true) {expr : Expr}
    {marker : TypeMarker} (h : expr.Declares marker) : expr.nodes scope = .ok [.type marker] := by
  have hmarker := typeMarker?_eq_some_iff.mpr h
  cases h <;> rw [Expr.nodes, hscope, hmarker] <;> rfl

theorem template_ne_type (declaresType : Bool) (position : Option Position) (depth : ℕ)
    (text : String) (marker : TypeMarker) :
    (scopeWithin declaresType position depth).template text ≠ .ok (.type marker) := by
  intro h
  cases depth with
  | zero => cases h
  | succ depth =>
    simp only [scopeWithin] at h
    split at h
    · obtain ⟨nodes, -, h⟩ := exists_of_bind_ok h
      unfold concatenation at h
      split at h <;> cases h
    · cases h

theorem operator_ne_type {front back : List Node} {symbol : Operator} {marker : TypeMarker} :
    front ++ .operator symbol :: back ≠ [.type marker] := by
  intro h
  have hmem : Node.operator symbol ∈ [Node.type marker] := by
    rw [← h]
    exact List.mem_append_right _ (List.mem_cons_self ..)
  cases List.mem_singleton.mp hmem

section
variable {scope : Scope} (hscope : scope.declaresType = true)
  (htemplate : ∀ text marker, scope.template text ≠ .ok (.type marker))
  {expr : Expr} {marker : TypeMarker}
include hscope htemplate

theorem nodes_eq_type_iff : expr.nodes scope = .ok [.type marker] ↔ expr.Declares marker := by
  refine ⟨fun h => typeMarker?_eq_some_iff.mp ?_, nodes_of_declares hscope⟩
  cases expr <;> simp only [Expr.nodes] at h
  case null | bool | number | string => cases h
  case template | heredoc =>
    obtain ⟨node, hnode, h⟩ := exists_of_bind_ok h
    cases h
    exact absurd hnode (htemplate _ _)
  case «variable» =>
    split at h
    · cases h
      assumption
    · cases h
  case call =>
    split at h
    · cases h
      assumption
    · obtain ⟨_, -, h⟩ := exists_of_bind_ok h
      cases h
  case array | object | parens | unary =>
    obtain ⟨_, -, h⟩ := exists_of_bind_ok h
    cases h
  case binary =>
    obtain ⟨_, -, h⟩ := exists_of_bind_ok h
    obtain ⟨_, -, h⟩ := exists_of_bind_ok h
    exact absurd (Except.ok.inj h) operator_ne_type
  case conditional =>
    obtain ⟨_, -, h⟩ := exists_of_bind_ok h
    obtain ⟨_, -, h⟩ := exists_of_bind_ok h
    obtain ⟨_, -, h⟩ := exists_of_bind_ok h
    refine absurd (Except.ok.inj h) ?_
    rw [List.append_assoc]
    exact operator_ne_type
  case traversal =>
    obtain ⟨_, -, h⟩ := exists_of_bind_ok h
    obtain ⟨_, -, h⟩ := exists_of_bind_ok h
    cases h
  case comprehension =>
    obtain ⟨_, -, h⟩ := exists_of_bind_ok h
    obtain ⟨_, -, h⟩ := exists_of_bind_ok h
    obtain ⟨_, -, h⟩ := exists_of_bind_ok h
    obtain ⟨_, -, h⟩ := exists_of_bind_ok h
    cases h

theorem node_eq_type_iff : expr.node scope = .ok (.type marker) ↔ expr.Declares marker := by
  rw [← nodes_eq_type_iff hscope htemplate]
  constructor
  · intro h
    obtain ⟨nodes, hnodes, h⟩ := exists_of_bind_ok h
    have hnode : expr.asOperand nodes = .type marker := Except.ok.inj h
    unfold Expr.asOperand at hnode
    split at hnode
    · rwa [← hnode]
    · cases hnode
  · intro h
    rw [Expr.node, h]
    cases (nodes_eq_type_iff hscope htemplate).mp h <;> rfl

end

theorem setting_eq_type_iff {source : String} {value : Expr} {offset : ℕ} {marker : TypeMarker} :
    (Structure.setting "type" value offset).node source =
        .ok (.named "type" [.type marker] (some (Position.ofOffset source offset))) ↔
      value.Declares marker := by
  set position := some (Position.ofOffset source offset)
  set scope := scopeWithin true position (source.length + 1)
  have hnode : (Structure.setting "type" value offset).node source =
      value.nodes scope >>= fun nodes => pure (.named "type" nodes position) := rfl
  have hscope : scope.declaresType = true := rfl
  rw [← nodes_eq_type_iff hscope (template_ne_type true position _), hnode]
  constructor
  · intro h
    obtain ⟨nodes, hnodes, h⟩ := exists_of_bind_ok h
    cases h
    exact hnodes
  · intro h
    rw [h]
    rfl

end Source

/-! The way of a declaration through a document. -/

namespace TypeMarker

theorem declares_expr {marker : TypeMarker} (h : marker.Declarable) :
    marker.expr.Declares marker := by
  induction h with
  | bare kind =>
    cases kind
    case list | map | set => exact .constructor (by decide)
    all_goals exact .keyword (by decide)
  | applied h _ ih => exact .element h ih

theorem isWord_word (kind : TypeKind) : Source.IsWord kind.word.toList := by
  cases kind <;> exact .intro (by decide) (List.all_eq_true.mp (by decide))

theorem word_notMem_constants (kind : TypeKind) : kind.word ∉ ["null", "true", "false"] := by
  cases kind <;> decide

theorem toList_text_applied (kind : TypeKind) (element : TypeMarker) :
    (applied kind element).text.toList =
      kind.word.toList ++ '(' :: (element.text.toList ++ [')']) := by
  simp [text]

theorem startsWord_text (marker : TypeMarker) (rest : List Char) :
    Source.StartsWord (marker.text.toList ++ rest) := by
  cases marker with
  | bare kind => exact (isWord_word kind).startsWord rest
  | applied kind element =>
    rw [toList_text_applied, List.append_assoc]
    exact (isWord_word kind).startsWord _

theorem exprWithin_text (marker : TypeMarker) {depth : ℕ} {rest : List Char}
    (hdepth : marker.text.toList.length ≤ depth) (hrest : Source.Closes rest) :
    Source.exprWithin (depth + 1) false (marker.text.toList ++ rest) =
      some (marker.expr, rest) := by
  induction marker generalizing depth rest with
  | bare kind =>
    exact Source.exprStep_named (startsWord_text (bare kind) rest)
      (Source.named_variable _ (isWord_word kind) (word_notMem_constants kind) hrest) rfl hrest
  | applied kind element ih =>
    have hstarts := startsWord_text (applied kind element) rest
    have happend : element.text.toList ++ [')'] ++ rest = element.text.toList ++ ')' :: rest := by
      rw [List.append_assoc, List.singleton_append]
    rw [toList_text_applied, List.append_assoc, List.cons_append, happend] at hstarts ⊢
    rw [toList_text_applied, List.length_append, List.length_cons, List.length_append] at hdepth
    obtain ⟨depth, rfl⟩ : ∃ d, depth = d + 1 := Nat.exists_eq_succ_of_ne_zero (by omega)
    have helement : Source.exprWithin (depth + 1) false (element.text.toList ++ ')' :: rest) =
        some (element.expr, ')' :: rest) := ih (by omega) (.paren rest)
    exact Source.exprStep_named hstarts
      (Source.named_call _ (isWord_word kind) (startsWord_text element _) helement) rfl hrest

theorem evaluate_type (session : Session) (marker : TypeMarker) (position : Option Position) :
    session.evaluate [.named "type" [.type marker] position] =
      (.ok [("type", .type marker)], session) := by
  set nodes : List Node := [.named "type" [.type marker] position]
  set setting := session.setting
  set depth := depthFor setting nodes
  set placed : State := { calls := session.calls, document := [("type", .type marker)] }
  have hstructure : (structureDocument setting depth nodes).outcome { calls := session.calls } =
      (.ok (), placed) := outcome_structureDocument rfl
  have hfree : (Value.map placed.document).Every fun _ => False :=
    (Value.every_map _).mpr (List.forall_mem_singleton.mpr (Value.every_type marker))
  have hsize : Value.sizeEntries placed.document ≤ Node.sizeAll nodes := by
    simp [placed, nodes, Value.sizeEntries, Value.size, Node.sizeAll, Node.size]
  have hresolve : (resolveDocument setting depth).outcome placed = (.ok (), placed) :=
    outcome_resolveDocument_of_free setting hfree (hsize.trans (sizeAll_le_depthFor setting nodes))
  have hrun : run setting session.calls nodes = (.ok (), placed) :=
    (Eval.outcome_bind_ok hstructure _).trans hresolve
  rw [Session.evaluate, hrun]

theorem structures?_text (marker : TypeMarker) :
    Source.structures? ("type = " ++ marker.text) = some [.setting "type" marker.expr 0] := by
  have hname : Source.IsWord "type".toList :=
    .intro (by decide) (List.all_eq_true.mp (by decide))
  have hstarts := startsWord_text marker []
  have hread := exprWithin_text marker (Nat.le_refl _) .nil
  rw [List.append_nil] at hstarts hread
  have hsource : "type = " ++ marker.text = "type" ++ " = " ++ marker.text := by
    rw [← String.toList_inj]
    simp only [String.toList_append]
    rfl
  rw [hsource]
  exact Source.structures?_setting hname hstarts hread

theorem readNodes_text {marker : TypeMarker} (h : marker.Declarable) :
    readNodes ("type = " ++ marker.text) = .ok [.named "type" [.type marker]
      (some (Position.ofOffset ("type = " ++ marker.text) 0))] := by
  rw [readNodes, structures?_text]
  simp only [Source.structureNodes, Source.Structure.node]
  rw [Source.nodes_of_declares rfl (declares_expr h)]
  rfl

theorem parse_text (session : Session) {marker : TypeMarker} (h : marker.Declarable) :
    session.parse ("type = " ++ marker.text) = (.ok [("type", .type marker)], session) := by
  have hnodes : session.nodes ("type = " ++ marker.text) = .ok [.named "type" [.type marker]
      (some (Position.ofOffset ("type = " ++ marker.text) 0))] := by
    have hread := readNodes_text h
    rw [Session.nodes, hread, readNodesLeniently_of_readNodes hread, ite_self]
  rw [Session.parse, hnodes]
  exact evaluate_type session marker _

theorem isPlainChar_of_mem_text {marker : TypeMarker} :
    ∀ c ∈ marker.text.toList, isPlainChar c = true := by
  have hword (kind : TypeKind) : ∀ c ∈ kind.word.toList, isPlainChar c = true := by
    cases kind <;> exact List.all_eq_true.mp (by decide)
  induction marker with
  | bare kind => exact hword kind
  | applied kind element ih =>
    intro c hmem
    rw [toList_text_applied, List.mem_append, List.mem_cons, List.mem_append,
      List.mem_singleton] at hmem
    rcases hmem with hmem | rfl | hmem | rfl
    · exact hword kind c hmem
    · rfl
    · exact ih c hmem
    · rfl

theorem text_notMem_constantWords (marker : TypeMarker) : marker.text ∉ Yaml.constantWords := by
  cases marker with
  | bare kind => cases kind <;> decide
  | applied kind element =>
    have hparen : ∀ word ∈ Yaml.constantWords, '(' ∉ word.toList := by decide
    exact fun hmem => hparen _ hmem (by simp [toList_text_applied])

theorem json_type (marker : TypeMarker) :
    Json.write (.type marker) = "\"" ++ marker.text ++ "\"" :=
  Json.quoteString_of_plain isPlainChar_of_mem_text

theorem yaml_type (marker : TypeMarker) : Yaml.write (.type marker) = marker.text ++ "\n" := by
  have hstarts := startsWord_text marker []
  rw [List.append_nil] at hstarts
  have hblock : Yaml.block (.type marker) = .inline marker.text [] :=
    Yaml.ofText_of_plain hstarts isPlainChar_of_mem_text (text_notMem_constantWords marker)
  rw [Yaml.write, hblock]
  simp

end TypeMarker

/-- Type declarations are read as they are written, come out of every session as what was written,
and are written again as text, as JSON and as YAML. What is taken for a type are the words of types
and the calls of constructors with nothing or with a type, as the value of a setting `type` and as
every operand in it. -/
theorem type_declarations_round_trip :
    (∀ marker : TypeMarker, marker.Declarable →
      (∀ session : Session, session.parse ("type = " ++ marker.text) =
        (.ok [("type", .type marker)], session)) ∧
      (Value.type marker).text = marker.text ∧
      Json.write (.type marker) = "\"" ++ marker.text ++ "\"" ∧
      Yaml.write (.type marker) = marker.text ++ "\n") ∧
    (∀ (expr : Source.Expr) (marker : TypeMarker),
      expr.typeMarker? = some marker ↔ expr.Declares marker) ∧
    (∀ (source : String) (value : Source.Expr) (offset : ℕ) (marker : TypeMarker),
      (Source.Structure.setting "type" value offset).node source =
          .ok (.named "type" [.type marker] (some (Position.ofOffset source offset))) ↔
        value.Declares marker) ∧
    ∀ (position : Option Position) (depth : ℕ) (expr : Source.Expr) (marker : TypeMarker),
      expr.node (Source.scopeWithin true position depth) = .ok (.type marker) ↔
        expr.Declares marker := by
  refine ⟨fun marker h => ?texts, fun _ _ => Source.typeMarker?_eq_some_iff,
    fun _ _ _ _ => Source.setting_eq_type_iff, fun position depth _ _ => ?operands⟩
  case texts =>
    exact ⟨fun session => TypeMarker.parse_text session h, rfl, marker.json_type, marker.yaml_type⟩
  case operands =>
    have hscope : (Source.scopeWithin true position depth).declaresType = true := by
      cases depth <;> rfl
    exact Source.node_eq_type_iff hscope (Source.template_ne_type true position depth)

theorem type_declarations_round_trip_nested :
    let marker : TypeMarker := .applied .list (.applied .map (.bare .string))
    marker.Declarable ∧
      cautiousSession.parse "type = list(map(string))" =
        (.ok [("type", .type marker)], cautiousSession) ∧
      Json.write (.type marker) = "\"list(map(string))\"" ∧
      Yaml.write (.type marker) = "list(map(string))\n" ∧
      (Source.Expr.call "list" [.call "map" [.variable "string"] false] false).typeMarker? =
        some marker := by
  intro marker
  have hdeclarable : marker.Declarable :=
    .applied (by decide) (.applied (by decide) (.bare .string))
  obtain ⟨htexts, hmarkers, -⟩ := type_declarations_round_trip
  obtain ⟨hparse, -, hjson, hyaml⟩ := htexts marker hdeclarable
  have hexpr := (hmarkers marker.expr marker).mpr (TypeMarker.declares_expr hdeclarable)
  exact ⟨hdeclarable, hparse cautiousSession, hjson, hyaml, hexpr⟩

end HclEval
