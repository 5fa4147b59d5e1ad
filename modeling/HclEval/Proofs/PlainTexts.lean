import HclEval.Proofs.Source.Reading
import HclEval.Yaml

/-!
Texts that are written as they are. A text of word characters and parentheses needs no escape in
JSON. If it starts with a letter or an underscore it is no number either, and in YAML it stands
without quotes unless it is one of the words for constants.
-/
namespace HclEval

def isPlainChar (c : Char) : Bool := Source.isIdentRest c || c == '(' || c == ')'

section
variable {c : Char} (hc : isPlainChar c = true)
include hc

theorem ne_of_isPlainChar {d : Char} (hd : isPlainChar d = false) : c ≠ d := by
  rintro rfl
  rw [hc] at hd
  cases hd

theorem toNat_of_isPlainChar : 0x20 < c.toNat ∧ c.toNat < 0x7F := by
  have halphanum : c.isAlphanum = (c.isAlpha || c.isDigit) := rfl
  simp only [isPlainChar, Source.isIdentRest, halphanum, Bool.or_eq_true, beq_iff_eq,
    Source.isAlpha_iff_toNat, Char.isDigit_iff_toNat, Char.reduceToNat] at hc
  rcases hc with ((((hc | hc) | rfl) | rfl) | rfl) | rfl
  case inl.inl.inl.inl.inl | inl.inl.inl.inl.inr => omega
  all_goals decide

end

namespace Json

theorem escapeChar_of_isPlainChar {c : Char} (hc : isPlainChar c = true) :
    escapeChar c = [c] := by
  have hcontrol : ¬ c.toNat < 32 := Nat.lt_asymm (toNat_of_isPlainChar hc).1
  simp only [escapeChar, ne_of_isPlainChar hc (d := '"') rfl,
    ne_of_isPlainChar hc (d := '\\') rfl, ne_of_isPlainChar hc (d := '\x08') rfl,
    ne_of_isPlainChar hc (d := '\t') rfl, ne_of_isPlainChar hc (d := '\n') rfl,
    ne_of_isPlainChar hc (d := '\x0c') rfl, ne_of_isPlainChar hc (d := '\r') rfl, hcontrol,
    if_false]

theorem quoteString_of_plain {text : String} (hplain : ∀ c ∈ text.toList, isPlainChar c = true) :
    quoteString text = "\"" ++ text ++ "\"" := by
  have hescape : text.toList.flatMap escapeChar = text.toList :=
    (List.flatMap_congr fun c hc => escapeChar_of_isPlainChar (hplain c hc)).trans
      (List.flatMap_singleton' _)
  rw [← String.toList_inj, quoteString, String.toList_ofList, quote, hescape]
  simp

end Json

theorem Number.isFinite_of_read?_word {text : String} (hstarts : Source.StartsWord text.toList)
    {x : Number} (h : Number.read? text = some x) : x.isFinite = false := by
  unfold Number.read? at h
  generalize text.toList = chars at *
  obtain @⟨c, rest, hstart⟩ := hstarts
  have hread : Number.readUnsigned? false (c :: rest) = some x := by
    split at h
    case h_3 => exact h
    all_goals
      rename_i heq
      exact absurd (List.cons.inj heq).1 (Source.ne_of_isIdentStart hstart rfl)
  have hdigit := Source.isDigit_of_isIdentStart hstart
  have hpoint := Source.ne_of_isIdentStart hstart (d := '.') rfl
  unfold Number.readUnsigned? at hread
  split at hread
  case h_1 | h_2 | h_3 =>
    cases hread
    rfl
  case h_4 =>
    simp [hdigit, hpoint] at hread

namespace Yaml

theorem isAmbiguous_of_startsWord {text : String} (hstarts : Source.StartsWord text.toList)
    (hconstant : text ∉ constantWords) : isAmbiguous text = false := by
  have hcontains : constantWords.contains text = false := by simpa using hconstant
  have hdigits : isPaddedDigits text.toList = false ∧ isBasedInteger text.toList = false := by
    generalize text.toList = chars at *
    obtain @⟨c, rest, hstart⟩ := hstarts
    have hsign := Source.ne_of_isIdentStart hstart (d := '-') rfl
    have hplus := Source.ne_of_isIdentStart hstart (d := '+') rfl
    have hzero := Source.ne_of_isIdentStart hstart (d := '0') rfl
    simp [isPaddedDigits, isBasedInteger, hsign, hplus, hzero]
  rw [isAmbiguous, hcontains, hdigits.1, hdigits.2]
  cases hread : Number.read? text with
  | none => rfl
  | some x => exact Number.isFinite_of_read?_word hstarts hread

theorem hasInnerIndicator_of_plain {text : List Char} (hplain : ∀ c ∈ text, isPlainChar c = true) :
    hasInnerIndicator text = false := by
  induction text with
  | nil => rfl
  | cons c rest ih =>
    obtain ⟨hc, hrest⟩ := List.forall_mem_cons.mp hplain
    have hcolon := ne_of_isPlainChar hc (d := ':') rfl
    have hspace := ne_of_isPlainChar hc (d := ' ') rfl
    simpa [hasInnerIndicator, hcolon, hspace] using ih hrest

theorem hasIndicator_of_startsWord {text : List Char} (hstarts : Source.StartsWord text)
    (hplain : ∀ c ∈ text, isPlainChar c = true) : hasIndicator text = false := by
  have hinner := hasInnerIndicator_of_plain hplain
  obtain @⟨c, rest, hstart⟩ := hstarts
  have hfirst : startsIndicator c = false := by
    have hall : "#,[]\x7b\x7d&*!|>'\"%@`".toList.all (!Source.isIdentStart ·) = true := by decide
    rw [startsIndicator, List.contains_eq_any_beq, List.any_eq_false]
    intro d hd
    have hother := List.all_eq_true.mp hall d hd
    simpa using Source.ne_of_isIdentStart hstart (by simpa using hother)
  have hhyphen := Source.ne_of_isIdentStart hstart (d := '-') rfl
  have hquestion := Source.ne_of_isIdentStart hstart (d := '?') rfl
  have hpoint := Source.ne_of_isIdentStart hstart (d := '.') rfl
  cases rest <;>
    simp [hasIndicator, hinner, hfirst, hhyphen, hquestion, hhyphen.symm, hpoint.symm,
      List.isPrefixOf_cons_cons]

theorem ofText_of_plain {text : String} (hstarts : Source.StartsWord text.toList)
    (hplain : ∀ c ∈ text.toList, isPlainChar c = true) (hconstant : text ∉ constantWords) :
    ofText text = .inline text [] := by
  have hlines : text.contains '\n' = false := by
    rw [String.contains_char_eq, decide_eq_false_iff_not]
    exact fun hmem => ne_of_isPlainChar (hplain _ hmem) rfl rfl
  have hprintable : (text.toList.any fun c => !isPrintable c || isBreak c) = false := by
    rw [List.any_eq_false]
    intro c hmem
    obtain ⟨hlow, hhigh⟩ := toNat_of_isPlainChar (hplain c hmem)
    have hbreak : isBreak c = false := by
      have hne {d : Char} (hd : isPlainChar d = false) := ne_of_isPlainChar (hplain c hmem) hd
      simp [isBreak, hne (d := '\n') rfl, hne (d := '\r') rfl, hne (d := '\u0085') rfl,
        hne (d := '\u2028') rfl, hne (d := '\u2029') rfl]
    simp [isPrintable, hbreak]
    omega
  have hspace : hasOuterSpace text.toList = false := by
    have hne {c : Char} (hmem : c ∈ text.toList) : c ≠ ' ' := ne_of_isPlainChar (hplain c hmem) rfl
    simp only [hasOuterSpace, Bool.or_eq_false_iff, beq_eq_false_iff_ne]
    exact ⟨fun heq => hne (List.mem_of_head? heq) rfl,
      fun heq => hne (List.mem_of_getLast? heq) rfl⟩
  rw [ofText, hlines, line]
  simp [hprintable, hspace, isAmbiguous_of_startsWord hstarts hconstant,
    hasIndicator_of_startsWord hstarts hplain]

end Yaml
end HclEval
