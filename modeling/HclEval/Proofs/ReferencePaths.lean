import HclEval.Proofs.Indexing
import HclEval.Proofs.Text.Quoted
import HclEval.Source.Blank

/-!
References that start with a name are known by their text. A name ends where a point or a bracket
follows, an index at the bracket that closes it, and keys are quoted; so no key, whatever is in it,
imitates another path. The references in progress are kept as texts, and still the check for cycles
takes no reference for another one.
-/
namespace HclEval

open Reduction

namespace Selector

def Delimited : Selector → Prop
  | field name => ∀ c ∈ name.toList, c ∉ ['.', '[']
  | key _ => True
  | position raw => ∀ c ∈ raw.toList, c ∉ ['"', ']']

theorem notMem_of_all {p : Char → Bool} {chars stops : List Char} (h : chars.all p)
    (hstops : stops.all (!p ·)) : ∀ c ∈ chars, c ∉ stops := by
  intro c hc hmem
  have hp := List.all_eq_true.mp h c hc
  have hnot := List.all_eq_true.mp hstops c hmem
  rw [hp] at hnot
  cases hnot

theorem delimited_field {name : String} (h : name.toList.all Source.isIdentRest) :
    (field name).Delimited := notMem_of_all h (by decide)

theorem delimited_position {raw : String}
    (h : raw.toList.all fun c => c.isDigit || ['.', 'e', '+', '-'].contains c) :
    (position raw).Delimited := notMem_of_all h (by decide)

def chars : Selector → List Char
  | field name => '.' :: name.toList
  | key text => '[' :: Text.Quoted.write text.toList ++ [']']
  | position raw => '[' :: raw.toList ++ [']']

section Text

theorem toList_text_array (index : Node) :
    (Node.text (.array [index])).toList = '[' :: index.text.toList ++ [']'] := by
  have htext : Node.text (.array [index]) = "[" ++ ", ".intercalate [index.text] ++ "]" := rfl
  rw [htext, String.intercalate_singleton, String.toList_append, String.toList_append]
  rfl

theorem toList_accessText_cons (selector : Selector) (rest : List Node) :
    (Node.accessText (selector.node :: rest)).toList =
      selector.chars ++ (Node.accessText rest).toList := by
  cases selector with
  | field name =>
    have htext : Node.accessText ((field name).node :: rest) =
        "." ++ name ++ Node.accessText rest := rfl
    rw [htext, String.toList_append, String.toList_append]
    rfl
  | key text =>
    have htext : Node.accessText ((key text).node :: rest) =
        Node.text (.array [.string text]) ++ Node.accessText rest := rfl
    have hkey : (Node.string text).text.toList = Text.Quoted.write text.toList :=
      String.toList_ofList
    rw [htext, String.toList_append, toList_text_array, hkey]
    rfl
  | position raw =>
    have htext : Node.accessText ((position raw).node :: rest) =
        Node.text (.array [.number raw]) ++ Node.accessText rest := rfl
    rw [htext, String.toList_append, toList_text_array]
    rfl

theorem toList_accessText (selectors : List Selector) :
    (Node.accessText (selectors.map node)).toList = selectors.flatMap chars := by
  induction selectors with
  | nil => rfl
  | cons selector rest ih =>
    rw [List.map_cons, toList_accessText_cons, ih, List.flatMap_cons]

theorem toList_pathText (name : String) (selectors : List Selector) :
    (Node.pathText (.segment name :: selectors.map node)).toList =
      name.toList ++ selectors.flatMap chars := by
  have htext : Node.pathText (.segment name :: selectors.map node) =
      name ++ Node.accessText (selectors.map node) := rfl
  rw [htext, String.toList_append, toList_accessText]

end Text

theorem head?_flatMap_chars (selectors : List Selector) :
    ∀ c ∈ (selectors.flatMap chars).head?, c ∈ ['.', '['] := by
  intro c hc
  cases selectors with
  | nil => cases hc
  | cons selector rest => cases selector <;> cases hc <;> decide

theorem chars_key_append (text : String) (r : List Char) :
    (key text).chars ++ r = '[' :: (Text.Quoted.write text.toList ++ ']' :: r) := by
  simp [chars]

theorem chars_position_append (raw : String) (r : List Char) :
    (position raw).chars ++ r = '[' :: (raw.toList ++ ']' :: r) := by
  simp [chars]

theorem chars_position_append_ne {raw text : String} (h : (position raw).Delimited)
    (r r' : List Char) : (position raw).chars ++ r ≠ (key text).chars ++ r' := by
  rw [chars_position_append, chars_key_append]
  intro heq
  obtain ⟨-, htail⟩ := List.cons.inj heq
  rcases hraw : raw.toList with _ | ⟨c, cs⟩ <;> rw [hraw] at htail
  · exact absurd (List.cons.inj htail).1 (by decide)
  · refine h c (by rw [hraw]; exact List.mem_cons_self) ?_
    rw [(List.cons.inj htail).1]
    decide

theorem chars_append_inj {selector selector' : Selector} {r r' : List Char}
    (hselector : selector.Delimited) (hselector' : selector'.Delimited)
    (hr : ∀ c ∈ r.head?, c ∈ ['.', '[']) (hr' : ∀ c ∈ r'.head?, c ∈ ['.', '['])
    (h : selector.chars ++ r = selector'.chars ++ r') : selector = selector' ∧ r = r' := by
  -- only a name needs what is known of the rest: an index ends with its own bracket
  cases selector with
  | field name =>
    cases selector' with
    | field name' =>
      obtain ⟨hname, hrest⟩ :=
        Text.append_inj_of_stops hselector hselector' hr hr' (List.cons.inj h).2
      exact ⟨congrArg field (String.toList_inj.mp hname), hrest⟩
    | key | position => exact absurd (List.cons.inj h).1 (by decide)
  | key text =>
    cases selector' with
    | field => exact absurd (List.cons.inj h).1 (by decide)
    | key text' =>
      rw [chars_key_append, chars_key_append] at h
      obtain ⟨htext, hrest⟩ := Text.Quoted.write_append_inj (List.cons.inj h).2
      exact ⟨congrArg key (String.toList_inj.mp htext), (List.cons.inj hrest).2⟩
    | position raw' => exact absurd h.symm (chars_position_append_ne hselector' _ _)
  | position raw =>
    cases selector' with
    | field => exact absurd (List.cons.inj h).1 (by decide)
    | key text' => exact absurd h (chars_position_append_ne hselector _ _)
    | position raw' =>
      rw [chars_position_append, chars_position_append] at h
      obtain ⟨hraw, hrest⟩ := Text.append_inj_of_stops hselector hselector' (by simp) (by simp)
        (List.cons.inj h).2
      exact ⟨congrArg position (String.toList_inj.mp hraw), (List.cons.inj hrest).2⟩

theorem flatMap_chars_inj {selectors selectors' : List Selector}
    (hselectors : ∀ selector ∈ selectors, selector.Delimited)
    (hselectors' : ∀ selector ∈ selectors', selector.Delimited)
    (h : selectors.flatMap chars = selectors'.flatMap chars) : selectors = selectors' := by
  induction selectors generalizing selectors' with
  | nil =>
    cases selectors' with
    | nil => rfl
    | cons selector' rest' => cases selector' <;> cases h
  | cons selector rest ih =>
    cases selectors' with
    | nil => cases selector <;> cases h
    | cons selector' rest' =>
      obtain ⟨hselector, hrest⟩ := List.forall_mem_cons.mp hselectors
      obtain ⟨hselector', hrest'⟩ := List.forall_mem_cons.mp hselectors'
      rw [List.flatMap_cons, List.flatMap_cons] at h
      obtain ⟨rfl, htail⟩ := chars_append_inj hselector hselector' (head?_flatMap_chars rest)
        (head?_flatMap_chars rest') h
      rw [ih hrest hrest' htail]

end Selector

namespace Node

/-- The segments of a reference that starts with a name and goes on with selectors. -/
inductive NamedPath : List Node → Prop
  | intro {name : String} {selectors : List Selector} (hname : (Selector.field name).Delimited)
    (hselectors : ∀ selector ∈ selectors, selector.Delimited) :
    NamedPath (.segment name :: selectors.map Selector.node)

theorem NamedPath.pathText_inj {segments segments' : List Node} (h : NamedPath segments)
    (h' : NamedPath segments') : pathText segments = pathText segments' ↔ segments = segments' := by
  refine ⟨fun htext => ?_, congrArg pathText⟩
  obtain ⟨hname, hselectors⟩ := h
  obtain ⟨hname', hselectors'⟩ := h'
  have hchars := congrArg String.toList htext
  rw [Selector.toList_pathText, Selector.toList_pathText] at hchars
  obtain ⟨hfirst, hrest⟩ := Text.append_inj_of_stops hname hname'
    (Selector.head?_flatMap_chars _) (Selector.head?_flatMap_chars _) hchars
  rw [String.toList_inj.mp hfirst, Selector.flatMap_chars_inj hselectors hselectors' hrest]

theorem NamedPath.pathText_mem {segments : List Node} {inProgress : List (List Node)}
    (h : NamedPath segments)
    (hprogress : ∀ path ∈ inProgress, pathText path = pathText segments → NamedPath path) :
    pathText segments ∈ inProgress.map pathText ↔ segments ∈ inProgress := by
  rw [List.mem_map]
  constructor
  · rintro ⟨path, hpath, htext⟩
    exact ((hprogress path hpath htext).pathText_inj h).mp htext ▸ hpath
  · exact fun hmem => ⟨segments, hmem, rfl⟩

end Node

section Cycles

variable (reduce : Node → Eval Value) (setting : Setting) (depth : ℕ) {s : State}
  {segments : List Node} {inProgress : List (List Node)}

/-- References that start with a name and print alike are the same. So one more reference is a cycle
if and only if it is in progress itself, provided that whatever in progress prints like it starts
with a name too; otherwise it is followed, as far as there is room, and is then in progress. -/
theorem reference_text_identifies (hsegments : Node.NamedPath segments)
    (hprogress : ∀ path ∈ inProgress,
      Node.pathText path = Node.pathText segments → Node.NamedPath path)
    (hresolving : s.resolving = inProgress.map Node.pathText) :
    (∀ path, Node.NamedPath path →
      (Node.pathText path = Node.pathText segments ↔ path = segments)) ∧
    (segments ∈ inProgress →
      (resolveReference reduce setting depth segments).outcome s =
        (.error (.error (.cyclicReference (Node.pathText segments))), s)) ∧
    (segments ∉ inProgress →
      (resolveReference reduce setting depth segments).outcome s =
        if setting.maxDepth ≤ inProgress.length then
          (.error (.error (.recursionLimit setting.maxDepth)), s)
        else
          let (r, s') := (resolveSegments reduce setting depth segments).outcome
            { s with resolving := (segments :: inProgress).map Node.pathText }
          (r.map (·.getD (.node (.reference segments))),
            { s' with resolving := s'.resolving.tail })) := by
  have hmem : Node.pathText segments ∈ s.resolving ↔ segments ∈ inProgress := by
    rw [hresolving]
    exact hsegments.pathText_mem hprogress
  refine ⟨fun path hpath => hpath.pathText_inj hsegments, fun hcycle => ?_, fun hcycle => ?_⟩
  · exact outcome_resolveReference_of_mem reduce setting depth (hmem.mpr hcycle)
  · have hnew : Node.pathText segments ∉ s.resolving := fun h => hcycle (hmem.mp h)
    have hlength : s.resolving.length = inProgress.length := by rw [hresolving, List.length_map]
    split_ifs with hlimit
    · exact outcome_resolveReference_of_limit reduce setting depth hnew (by omega)
    · rw [outcome_resolveReference reduce setting depth hnew (by omega), List.map_cons,
        ← hresolving]
      rcases (resolveSegments reduce setting depth segments).outcome
        { s with resolving := Node.pathText segments :: s.resolving } with ⟨_ | _, _⟩ <;> rfl

theorem reference_text_identifies_bracket :
    (resolveReference (fun _ => pure .null) ⟨[], [], [], 64⟩ 1
        [.segment "a", .array [.string "0].b"]]).outcome { resolving := ["a[0].b"] } =
      (.ok (.node (.reference [.segment "a", .array [.string "0].b"]])),
        { resolving := ["a[0].b"] }) := by
  have hname : (Selector.field "a").Delimited := Selector.delimited_field (by decide)
  have hkey : Node.NamedPath [.segment "a", .array [.string "0].b"]] :=
    @Node.NamedPath.intro "a" [.key "0].b"] hname fun _ h => by
      cases List.mem_singleton.mp h
      trivial
  have hposition : Node.NamedPath [.segment "a", .array [.number "0"], .segment "b"] :=
    @Node.NamedPath.intro "a" [.position "0", .field "b"] hname <| List.forall_mem_cons.mpr
      ⟨Selector.delimited_position (by decide), fun _ h => by
        cases List.mem_singleton.mp h
        exact Selector.delimited_field (by decide)⟩
  have hprogress : ∀ path ∈ [[.segment "a", .array [.number "0"], .segment "b"]],
      Node.NamedPath path := fun _ h => List.mem_singleton.mp h ▸ hposition
  exact (reference_text_identifies _ _ 1 hkey (fun path h _ => hprogress path h)
    (by decide)).2.2 (by simp)

end Cycles
end HclEval
