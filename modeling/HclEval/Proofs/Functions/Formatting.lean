import HclEval.Proofs.Functions.Basic
import Mathlib.Data.Nat.Notation

/-!
Formatting texts. What stands between the verbs of a format is written as it is once its percent
signs are doubled, and the verbs take the arguments in order. Neither depends on the other: text
never takes an argument, and a verb without an argument stays where it is.
-/
namespace HclEval.Builtin

/-- A text as it stands in a format, with every percent sign doubled. -/
def literalFormat (chars : List Char) : List Char :=
  chars.flatMap fun c => if c = '%' then ['%', '%'] else [c]

def formatOf (first : List Char) (parts : List (Char × List Char)) : List Char :=
  literalFormat first ++ parts.flatMap fun (verb, chars) => '%' :: verb :: literalFormat chars

/-- What a verb comes to: the argument at its place among the verbs, or itself if there are not as
many arguments. -/
def verbText (arguments : List Value) (i : ℕ) (verb : Char) : List Char :=
  match arguments[i]? with
  | some value => writeArgument verb value
  | none => ['%', verb]

theorem verbText_tail (arguments : List Value) (i : ℕ) (verb : Char) :
    verbText arguments.tail i verb = verbText arguments (i + 1) verb := by
  rw [verbText, verbText, List.getElem?_tail]

theorem format_percent (rest : List Char) (arguments : List Value) :
    format ('%' :: '%' :: rest) arguments = '%' :: format rest arguments := by
  cases arguments <;> rfl

theorem format_cons_of_ne {c : Char} (hc : c ≠ '%') (rest : List Char) (arguments : List Value) :
    format (c :: rest) arguments = c :: format rest arguments := by
  rw [format]
  rintro d more h -
  exact hc h

theorem format_literalFormat_append (chars rest : List Char) (arguments : List Value) :
    format (literalFormat chars ++ rest) arguments = chars ++ format rest arguments := by
  induction chars with
  | nil => rfl
  | cons c chars ih =>
    have hcons : literalFormat (c :: chars) =
        (if c = '%' then ['%', '%'] else [c]) ++ literalFormat chars := List.flatMap_cons
    rw [hcons, List.append_assoc]
    by_cases hc : c = '%'
    · subst hc
      simp [format_percent, ih]
    · simp [hc, format_cons_of_ne hc, ih]

theorem format_verb {verb : Char} (hverb : isVerb verb = true) (rest : List Char)
    (arguments : List Value) :
    format ('%' :: verb :: rest) arguments =
      verbText arguments 0 verb ++ format rest arguments.tail := by
  have hne : (verb == '%') = false := by
    rw [beq_eq_false_iff_ne]
    rintro rfl
    cases hverb
  cases arguments <;> simp [format, hne, hverb, verbText]

theorem format_formatOf (first : List Char) {parts : List (Char × List Char)}
    (hparts : ∀ part ∈ parts, isVerb part.1 = true) (arguments : List Value) :
    format (formatOf first parts) arguments =
      first ++ (parts.mapIdx fun i part => verbText arguments i part.1 ++ part.2).flatten := by
  rw [formatOf, format_literalFormat_append]
  congr 1
  induction parts generalizing arguments with
  | nil => rfl
  | cons part parts ih =>
    obtain ⟨hverb, hparts⟩ := List.forall_mem_cons.mp hparts
    rw [List.flatMap_cons, List.cons_append, List.cons_append, format_verb hverb,
      format_literalFormat_append, ih hparts]
    simp only [verbText_tail, List.mapIdx_cons, List.flatten_cons, List.append_assoc]

theorem answers_format (chars : List Char) (arguments : List Value) :
    Answers "format" (text chars :: arguments) (.ok (text (format chars arguments))) := by
  have hanswer : Answers "format" (text chars :: arguments)
      (.ok (Value.ofOption (formatText (text chars :: arguments)))) :=
    answers_total (fun _ => rfl) _
  have hformat : formatText (text chars :: arguments) =
      some (text (format (String.ofList chars).toList arguments)) := rfl
  rwa [hformat, String.toList_ofList] at hanswer

/-- A format of texts with a verb `%s` between any two of them comes to the same texts, with the
string form of the next argument in place of each verb. Once the arguments have run out the verbs
stay, and arguments that no verb is left for are passed over. A format without verbs is a text
with its percent signs doubled, and comes to that text. -/
theorem format_places_arguments (first : List Char) (others : List (List Char))
    (arguments : List Value) :
    Answers "format" (text (formatOf first (others.map ('s', ·))) :: arguments)
      (.ok (text (first ++ (others.mapIdx fun i chars =>
        (arguments[i]?.elim "%s" Value.text).toList ++ chars).flatten))) ∧
    Answers "format" (text (literalFormat first) :: arguments) (.ok (text first)) := by
  have hverbs : ∀ part ∈ others.map ('s', ·), isVerb part.1 = true := by
    intro part hpart
    obtain ⟨chars, -, rfl⟩ := List.mem_map.mp hpart
    rfl
  have hwritten (i : ℕ) :
      verbText arguments i 's' = (arguments[i]?.elim "%s" Value.text).toList := by
    cases h : arguments[i]? <;> simp [verbText, h, writeArgument]
  have hparts : ((others.map ('s', ·)).mapIdx fun i part =>
        verbText arguments i part.1 ++ part.2) =
      others.mapIdx fun i chars => (arguments[i]?.elim "%s" Value.text).toList ++ chars := by
    rw [List.mapIdx_eq_iff]
    intro i
    cases h : others[i]? <;> simp [h, hwritten]
  constructor
  · have hanswer := answers_format (formatOf first (others.map ('s', ·))) arguments
    rwa [format_formatOf first hverbs, hparts] at hanswer
  · have hanswer := answers_format (literalFormat first) arguments
    have hliteral := format_literalFormat_append first [] arguments
    rw [List.append_nil, format, List.append_nil] at hliteral
    rwa [hliteral] at hanswer

example : format (formatOf "100%".toList [('s', "%".toList), ('s', [])]) [.bool true] =
    "100%true%%s".toList := by decide

end HclEval.Builtin
