import HclEval.Source.Body
import Mathlib.Data.List.Basic

/-!
Reading words and calls. A word goes on until a character follows that belongs to no word; an
expression that is a word or a call ends with the text or with a closing parenthesis.
-/
namespace HclEval.Source

theorem ne_of_isIdentStart {c d : Char} (hc : isIdentStart c = true)
    (hd : isIdentStart d = false) : c ≠ d := by
  rintro rfl
  rw [hc] at hd
  cases hd

theorem beq_of_isIdentStart {c d : Char} (hc : isIdentStart c = true)
    (hd : isIdentStart d = false) : (c == d) = false :=
  beq_eq_false_iff_ne.mpr (ne_of_isIdentStart hc hd)

theorem isAlpha_iff_toNat {c : Char} : c.isAlpha = true ↔
    65 ≤ c.toNat ∧ c.toNat ≤ 90 ∨ 97 ≤ c.toNat ∧ c.toNat ≤ 122 := by
  have hletter : c.isAlpha =
      (decide (65 ≤ c.toNat ∧ c.toNat ≤ 90) || (decide (97 ≤ c.toNat) && decide (c.toNat ≤ 122))) :=
    rfl
  simp [hletter]

theorem isDigit_of_isIdentStart {c : Char} (hc : isIdentStart c = true) : c.isDigit = false := by
  rw [Bool.eq_false_iff]
  intro hdigit
  simp only [Char.isDigit_iff_toNat, Char.reduceToNat] at hdigit
  rw [isIdentStart, Bool.or_eq_true, isAlpha_iff_toNat, beq_iff_eq] at hc
  rcases hc with hc | rfl
  · omega
  · exact absurd hdigit.2 (by decide)

theorem isSpace_of_isIdentStart {c : Char} (hc : isIdentStart c = true) (free : Bool) :
    isSpace free c = false := by
  simp only [isSpace, beq_of_isIdentStart hc (d := ' ') rfl, beq_of_isIdentStart hc (d := '\t') rfl,
    beq_of_isIdentStart hc (d := '\n') rfl, beq_of_isIdentStart hc (d := '\r') rfl, Bool.or_self,
    Bool.and_false]

inductive StartsWord : List Char → Prop
  | intro {c : Char} {rest : List Char} (start : isIdentStart c = true) : StartsWord (c :: rest)

inductive IsWord : List Char → Prop
  | intro {c : Char} {rest : List Char} (start : isIdentStart c = true)
      (more : ∀ d ∈ rest, isIdentRest d = true) : IsWord (c :: rest)

def EndsWord (rest : List Char) : Prop := ∀ c ∈ rest.head?, isIdentRest c = false

inductive Closes : List Char → Prop
  | nil : Closes []
  | paren (rest : List Char) : Closes (')' :: rest)

theorem IsWord.startsWord {word : List Char} (h : IsWord word) (rest : List Char) :
    StartsWord (word ++ rest) := by
  obtain ⟨hstart, -⟩ := h
  exact .intro hstart

theorem endsWord_cons {c : Char} (hc : isIdentRest c = false) (rest : List Char) :
    EndsWord (c :: rest) := by
  rintro d ⟨⟩
  exact hc

theorem Closes.endsWord {rest : List Char} (h : Closes rest) : EndsWord rest := by
  cases h with
  | nil => exact nofun
  | paren rest => exact endsWord_cons rfl rest

theorem EndsWord.takeWhile {rest : List Char} (h : EndsWord rest) :
    rest.takeWhile isIdentRest = [] := by
  cases rest with
  | nil => rfl
  | cons c rest => rw [List.takeWhile_cons, h c rfl, if_neg Bool.false_ne_true]

theorem EndsWord.dropWhile {rest : List Char} (h : EndsWord rest) :
    rest.dropWhile isIdentRest = rest := by
  cases rest with
  | nil => rfl
  | cons c rest => rw [List.dropWhile_cons, h c rfl, if_neg Bool.false_ne_true]

theorem identifier_append {name : String} {rest : List Char} (hname : IsWord name.toList)
    (hrest : EndsWord rest) : identifier (name.toList ++ rest) = some (name, rest) := by
  have hchars : String.ofList name.toList = name := String.ofList_toList
  generalize name.toList = word at *
  obtain ⟨hstart, hmore⟩ := hname
  rw [List.cons_append, identifier, if_pos hstart, List.takeWhile_append_of_pos hmore,
    List.dropWhile_append_of_pos hmore, hrest.takeWhile, hrest.dropWhile, List.append_nil, hchars]

theorem Closes.skip {rest : List Char} (h : Closes rest) (free : Bool) :
    Source.skip free rest = rest := by
  cases h with
  | nil => rfl
  | paren rest => cases free <;> rfl

namespace StartsWord

variable {text : List Char} (h : StartsWord text)
include h

theorem isEmpty : text.isEmpty = false := by
  obtain ⟨-⟩ := h
  rfl

theorem head?_ne {c : Char} (hc : isIdentStart c = false) : text.head? ≠ some c := by
  obtain ⟨hstart⟩ := h
  exact fun heq => ne_of_isIdentStart hstart hc (Option.some.inj heq)

theorem expect_eq_none {c : Char} (hc : isIdentStart c = false) : expect c text = none := by
  obtain ⟨hstart⟩ := h
  exact if_neg (ne_of_isIdentStart hstart hc).symm

theorem skip (free : Bool) : Source.skip free text = text := by
  obtain ⟨hstart⟩ := h
  rw [Source.skip, isSpace_of_isIdentStart hstart, beq_of_isIdentStart hstart (d := '/') rfl,
    beq_of_isIdentStart hstart (d := '#') rfl]
  rfl

theorem skip_space : Source.skip false (' ' :: text) = text := by
  obtain @⟨c, rest, hstart⟩ := h
  have hdrop : (' ' :: c :: rest).dropWhile (isSpace false) = c :: rest := by
    rw [List.dropWhile_cons_of_pos rfl, List.dropWhile_cons_of_neg]
    simp [isSpace_of_isIdentStart hstart]
  have hskip : Source.skip false (' ' :: c :: rest) =
      skipWithin false (rest.length + 2) (' ' :: c :: rest) := rfl
  rw [hskip, skipWithin, hdrop]
  split
  · rename_i heq
    exact absurd (List.cons.inj heq).1 (ne_of_isIdentStart hstart rfl)
  · rfl

theorem operand (self : ExprReader) : Source.operand self text = named self text := by
  obtain ⟨hstart⟩ := h
  simp only [Source.operand]
  split
  case h_6 => rw [isDigit_of_isIdentStart hstart, if_neg Bool.false_ne_true]
  all_goals exact absurd hstart (by decide)

theorem signedWithin (self : ExprReader) (free : Bool) (fuel : ℕ) :
    Source.signedWithin self free (fuel + 1) none text = named self text := by
  have hoperand := h.operand self
  obtain ⟨hstart⟩ := h
  simp only [Source.signedWithin]
  split
  case h_3 =>
    rw [hoperand]
    cases named self _ <;> rfl
  all_goals
    rename_i heq
    exact absurd (List.cons.inj heq).1 (ne_of_isIdentStart hstart rfl)

end StartsWord

theorem named_variable (self : ExprReader) {name : String} {rest : List Char}
    (hname : IsWord name.toList) (hconstant : name ∉ ["null", "true", "false"])
    (hrest : Closes rest) : named self (name.toList ++ rest) = some (.variable name, rest) := by
  have hcall : expect '(' (skip true rest) = none := by
    rw [hrest.skip]
    cases hrest <;> rfl
  simp only [List.mem_cons, List.not_mem_nil, or_false, not_or] at hconstant
  simp only [named, identifier_append hname hrest.endsWord, Option.bind_eq_bind, Option.bind_some,
    hcall]
  split
  · exact absurd rfl hconstant.1
  · exact absurd rfl hconstant.2.1
  · exact absurd rfl hconstant.2.2
  · rfl

theorem named_call (self : ExprReader) {name : String} {text rest : List Char} {argument : Expr}
    (hname : IsWord name.toList) (htext : StartsWord text)
    (hargument : self false text = some (argument, ')' :: rest)) :
    named self (name.toList ++ '(' :: text) = some (.call name [argument] false, rest) := by
  have hends : EndsWord ('(' :: text) := endsWord_cons rfl text
  have hopen : expect '(' (skip true ('(' :: text)) = some text := rfl
  have hclose : expect ')' text = none := htext.expect_eq_none rfl
  have hskip : skip true (')' :: rest) = ')' :: rest := (Closes.paren rest).skip true
  simp only [named, identifier_append hname hends, Option.bind_eq_bind, Option.bind_some, hopen,
    argumentsWithin, htext.skip, hclose, hargument, hskip]
  rfl

theorem exprStep_named {self : ExprReader} {text rest : List Char} {expr : Expr}
    (htext : StartsWord text) (hnamed : named self text = some (expr, rest))
    (hparens : expr.isInParens = false) (hrest : Closes rest) :
    exprStep self false text = some (expr, rest) := by
  have haccesses : accesses self false rest = some ([], rest) := by
    cases hrest <;> rfl
  have hbinary : binaryOperator (skip false rest) = none := by
    cases hrest <;> rfl
  have hconditional : expect '?' (skip false rest) = none := by
    cases hrest <;> rfl
  simp only [exprStep, htext.signedWithin, hnamed, Option.bind_eq_bind, Option.bind_some, hparens,
    Bool.or_self, haccesses, hbinary, hconditional]
  rfl

section
variable {name written : String} {value : Expr} (hname : IsWord name.toList)
  (hwritten : StartsWord written.toList)
  (hvalue : expr false written.toList = some (value, []))
include hname hwritten hvalue

theorem bodyWithin_setting (length fuel : ℕ) :
    bodyWithin length (fuel + 2) [] (name.toList ++ ' ' :: '=' :: ' ' :: written.toList) =
      some ([.setting name value (length - Position.byteLength
        (name.toList ++ ' ' :: '=' :: ' ' :: written.toList))], []) := by
  set text := written.toList
  have hstarts := hname.startsWord (' ' :: '=' :: ' ' :: text)
  have hends : EndsWord (' ' :: '=' :: ' ' :: text) := endsWord_cons rfl _
  have hahead : skip false (' ' :: '=' :: ' ' :: text) = '=' :: ' ' :: text := rfl
  have hequals : expect '=' ('=' :: ' ' :: text) = some (' ' :: text) := rfl
  have hread : settingValue ('=' :: ' ' :: text) = some (value, []) := by
    simp only [settingValue, hequals, Option.bind_eq_bind, Option.bind_some, hwritten.skip_space,
      hvalue]
  have hlast : endOfLine? [] = some [] := rfl
  have hmore (names : List String) : bodyWithin length (fuel + 1) names [] = some ([], []) := rfl
  rw [bodyWithin]
  simp only [hstarts.skip, hstarts.isEmpty, hstarts.head?_ne (c := '}') rfl,
    identifier_append hname hends, hahead, hequals, hread, hlast, hmore, Option.bind_eq_bind,
    Option.bind_some, Option.isSome_some]
  rfl

theorem structures?_setting :
    structures? (name ++ " = " ++ written) = some [.setting name value 0] := by
  have hsource : (name ++ " = " ++ written).toList =
      name.toList ++ ' ' :: '=' :: ' ' :: written.toList := by
    simp
  obtain ⟨fuel, hfuel⟩ :
      ∃ fuel, (name.toList ++ ' ' :: '=' :: ' ' :: written.toList).length + 1 = fuel + 2 :=
    ⟨name.toList.length + written.toList.length + 2, by simp; omega⟩
  simp only [structures?, hsource, hfuel, bodyWithin_setting hname hwritten hvalue _ fuel,
    Nat.sub_self]

end

end HclEval.Source
