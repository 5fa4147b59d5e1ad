import HclEval.Json.Reader
import HclEval.Json.Writer
import Mathlib.Data.List.Basic
import Mathlib.Tactic.Ring

/-!
Integers of JSON texts read back. Rounding leaves a representable number as it is, so the digits of
an integer that is representable are read as that number, and scaling it by one changes nothing.
Both zeros are written as `0`.
-/
namespace HclEval

namespace Number

theorem one_pos : 0 < one := by decide +kernel

theorem spacing_pos (units : ℕ) : 0 < spacing units := by
  unfold spacing
  split
  · exact Nat.one_pos
  · exact Nat.two_pow_pos _

theorem nearestMultiple_mul {width den : ℕ} (hwidth : 0 < width) (hden : 0 < den) (k : ℕ) :
    nearestMultiple width (k * width * den) den = k * width := by
  have hprod : 0 < den * width := Nat.mul_pos hden hwidth
  have hnum : k * width * den = den * width * k := by ring
  have hwhole : k * width * den / (den * width) = k := by
    rw [hnum, Nat.mul_div_cancel_left k hprod]
  have hrest : k * width * den % (den * width) = 0 := by
    rw [hnum, Nat.mul_mod_right]
  simp only [nearestMultiple, hwhole, hrest, Nat.mul_zero, if_pos hprod]

/-- The numbers that there are: their magnitudes are multiples of their spacing. -/
inductive Representable : Number → Prop
  | nan : Representable .nan
  | infinite (negative : Bool) : Representable (.infinite negative)
  | finite (negative : Bool) {units : ℕ} (hspacing : spacing units ∣ units)
    (hlargest : units ≤ largest) : Representable (.finite negative units)

variable {negative : Bool} {units den : ℕ}

theorem ofRatio_mul (h : (finite negative units).Representable) (hden : 0 < den) :
    ofRatio negative (units * den) den = .finite negative units := by
  obtain _ | _ | ⟨-, ⟨k, hk⟩, hlargest⟩ := h
  have hround : roundUnits (units * den) den = units := by
    rw [roundUnits, Nat.mul_div_cancel units hden]
    have hmultiple := nearestMultiple_mul (spacing_pos units) hden k
    rwa [mul_comm k, ← hk] at hmultiple
  rw [ofRatio, hround, ofUnits, if_neg (Nat.not_lt.mpr hlargest)]

theorem ofNat_of_representable {n : ℕ} (h : (finite false (n * one)).Representable) :
    ofNat n = .finite false (n * one) := by
  have hround := ofRatio_mul h Nat.one_pos
  rwa [Nat.mul_one] at hround

theorem representable_one : (finite false one).Representable := by
  exact .finite false (by decide +kernel) (by decide +kernel)

theorem ofDecimal_one : ofDecimal false 1 0 = .finite false one := by
  have hratio : ofDecimal false 1 0 = ofNat 1 := by
    have hlength : (Nat.toDigits 10 1).length = 1 := rfl
    simp [ofDecimal, ofNat, hlength]
  rw [hratio, ofNat_of_representable (by rw [Nat.one_mul]; exact representable_one), Nat.one_mul]

theorem mul_one_of_representable (h : (finite negative units).Representable) :
    (finite negative units).mul (.finite false one) = .finite negative units := by
  rw [mul, Bool.bne_false, ofRatio_mul h one_pos]

theorem ofDigits_digitChars (n : ℕ) : ofDigits (digitChars n) = n :=
  Nat.ofDigitChars_eq_foldl.symm.trans Nat.ofDigitChars_ten_toDigits

theorem digitChars_ne_nil (n : ℕ) : digitChars n ≠ [] := Nat.toDigits_ne_nil

theorem isDigit_of_mem_digitChars {n : ℕ} {c : Char} (h : c ∈ digitChars n) : c.isDigit = true :=
  Nat.isDigit_of_mem_toDigits (by decide) (by decide) h

theorem head?_digitChars_ne {n : ℕ} (hn : 0 < n) : (digitChars n).head? ≠ some '0' := by
  induction n using Nat.strong_induction_on with
  | _ n ih =>
    rcases Nat.lt_or_ge n 10 with hlt | hge
    · rw [digitChars, Nat.toDigits_of_lt_base hlt, List.head?_cons, ne_eq, Option.some_inj,
        Nat.digitChar_eq_zero]
      omega
    · rw [digitChars, Nat.toDigits_of_base_le (by decide) hge,
        List.head?_append_of_ne_nil _ Nat.toDigits_ne_nil]
      exact ih (n / 10) (by omega) (by omega)

/-- An integer below `2 ^ 63` in magnitude, where zero may have a sign. -/
inductive Short : Number → Prop
  | intro (negative : Bool) {n : ℕ} (hn : n < 2 ^ 63)
    (h : (finite negative (n * one)).Representable) : Short (.finite negative (n * one))

def oneZero : Number → Number
  | .finite negative units => .finite (negative && units != 0) units
  | x => x

theorem finite_beq_oneZero (negative : Bool) (units : ℕ) :
    (finite negative units == (finite negative units).oneZero) = true := by
  have hvalue : signedUnits (negative && units != 0) units = signedUnits negative units := by
    rcases Nat.eq_zero_or_pos units with rfl | hpos
    · cases negative <;> rfl
    · rw [bne_iff_ne.mpr hpos.ne', Bool.and_true]
  simp [oneZero, beq_eq, compare, hvalue]

theorem Short.beq_oneZero {x : Number} (hx : x.Short) : (x == x.oneZero) = true := by
  obtain ⟨negative, -, -⟩ := hx
  exact finite_beq_oneZero negative _

theorem shortInt?_of_lt (negative : Bool) {n : ℕ} (hn : n < 2 ^ 63) :
    shortInt? (.finite negative (n * one)) = some (signedUnits negative n) := by
  have hint : toInt? (.finite negative (n * one)) = some (signedUnits negative n) := by
    rw [toInt?, Nat.mul_mod_left, if_pos rfl, Nat.mul_div_cancel n one_pos]
  have hbounds : -maxInt64 ≤ signedUnits negative n ∧ signedUnits negative n ≤ maxInt64 := by
    unfold signedUnits maxInt64
    split <;> omega
  rw [shortInt?, hint, Option.filter_some, if_pos (by simpa using hbounds)]

end Number

namespace Json

open Number

inductive Follows : List Char → Prop
  | nil : Follows []
  | comma (rest : List Char) : Follows (',' :: rest)
  | bracket (rest : List Char) : Follows (']' :: rest)
  | brace (rest : List Char) : Follows ('}' :: rest)

theorem le_foldl_digits (digits : List Char) (n : ℕ) :
    n ≤ digits.foldl (fun n c => 10 * n + digitValue c) n := by
  induction digits generalizing n with
  | nil => exact Nat.le_refl n
  | cons c digits ih =>
    have hnext := ih (10 * n + digitValue c)
    rw [List.foldl_cons]
    omega

theorem takeDigits_of_lt {digits : List Char} {n : ℕ} (taken : ℕ)
    (h : digits.foldl (fun n c => 10 * n + digitValue c) n < wordCount) :
    takeDigits n taken digits =
      (digits.foldl (fun n c => 10 * n + digitValue c) n, taken + digits.length, []) := by
  induction digits generalizing n taken with
  | nil => rfl
  | cons c digits ih =>
    rw [List.foldl_cons] at h ⊢
    have hnext : ¬ wordCount ≤ 10 * n + digitValue c :=
      Nat.not_le.mpr ((le_foldl_digits digits _).trans_lt h)
    rw [takeDigits, if_neg hnext, ih (taken + 1) h, List.length_cons, Nat.add_right_comm,
      Nat.add_assoc]

theorem takeDigits_digitChars {n : ℕ} (hn : n < 2 ^ 63) :
    takeDigits 0 0 (digitChars n) = (n, (digitChars n).length, []) := by
  have hvalue : (digitChars n).foldl (fun n c => 10 * n + digitValue c) 0 = n :=
    ofDigits_digitChars n
  have hword : (digitChars n).foldl (fun n c => 10 * n + digitValue c) 0 < wordCount := by
    rw [hvalue, wordCount]
    omega
  have htake := takeDigits_of_lt 0 hword
  rwa [hvalue, Nat.zero_add] at htake

theorem scale?_zero {x : Number} (hscaled : x.mul (ofDecimal false 1 0) = x)
    (hfinite : x.isFinite = true) : scale? x 0 1 = some x := by
  rw [scale?, Int.natAbs_zero, if_pos (Nat.zero_le 308), Nat.cast_zero]
  simp only [hscaled, hfinite, Int.le_refl, if_true]

theorem toList_writeNumber (negative : Bool) {n : ℕ} (hn : n < 2 ^ 63) :
    (writeNumber (.finite negative (n * one))).toList =
      if negative && n != 0 then '-' :: digitChars n else digitChars n := by
  have hsign : signedUnits negative n < 0 ↔ (negative && n != 0) = true := by
    cases negative <;> simp [signedUnits, Nat.pos_iff_ne_zero]
  have habs : (signedUnits negative n).natAbs = n := by
    cases negative <;> simp [signedUnits]
  rw [writeNumber, shortInt?_of_lt negative hn]
  simp only [writeInt, String.toList_ofList, habs, hsign]
  split <;> rfl

theorem exists_writeNumber_eq_cons {x : Number} (hx : x.Short) :
    ∃ c rest, (writeNumber x).toList = c :: rest ∧ (c = '-' ∨ c.isDigit = true) := by
  obtain ⟨negative, hn, -⟩ := hx
  rename_i n
  obtain ⟨c, digits, hdigits⟩ := List.exists_cons_of_ne_nil (digitChars_ne_nil n)
  rw [toList_writeNumber negative hn]
  split
  · exact ⟨'-', digitChars n, rfl, .inl rfl⟩
  · exact ⟨c, digits, hdigits, .inr (isDigit_of_mem_digitChars (by rw [hdigits]; simp))⟩

section
variable {rest : List Char} (hrest : Follows rest)
include hrest

theorem Follows.takeWhile_isDigit : rest.takeWhile Char.isDigit = [] := by
  cases hrest <;> rfl

theorem Follows.dropWhile_isDigit : rest.dropWhile Char.isDigit = rest := by
  cases hrest <;> rfl

theorem Follows.readExponent? : readExponent? rest = some (0, rest) := by
  cases hrest <;> rfl

theorem Follows.ne_point (tail : List Char) : rest ≠ '.' :: tail := by
  rintro rfl
  cases hrest

theorem readUnsigned?_append {digits : List Char} {n taken : ℕ} {x : Number}
    (hdigits : ∀ c ∈ digits, c.isDigit = true) (hne : digits ≠ [])
    (hlead : digits.head? = some '0' → digits.length = 1)
    (htake : takeDigits 0 0 digits = (n, taken, [])) (hscale : scale? (.ofNat n) 0 1 = some x) :
    readUnsigned? (digits ++ rest) = some (x, rest) := by
  have hwhole : (digits ++ rest).takeWhile Char.isDigit = digits := by
    rw [List.takeWhile_append_of_pos hdigits, hrest.takeWhile_isDigit, List.append_nil]
  have hleft : (digits ++ rest).dropWhile Char.isDigit = rest := by
    rw [List.dropWhile_append_of_pos hdigits, hrest.dropWhile_isDigit]
  have hwritten : (digits.isEmpty || (digits.head? = some '0' && digits.length ≠ 1)) = false := by
    simpa [hne] using hlead
  have hpoint := hrest.ne_point
  -- the exponent comes from counting digits, of which none are left over and none are places
  have hunscaled : ∀ e : ℤ, e = 0 → scale? (.ofNat n) e (e.natAbs / 308 + 1) = some x := by
    rintro _ rfl
    exact hscale
  simp only [readUnsigned?, hwhole, hleft, hwritten, htake]
  rw [if_neg Bool.false_ne_true]
  simp only [Option.bind_eq_bind, Option.bind_some]
  refine Option.bind_eq_some_iff.mpr ⟨(0, rest), hrest.readExponent?, ?_⟩
  exact Option.bind_eq_some_iff.mpr ⟨x, hunscaled _ rfl, rfl⟩

theorem readUnsigned?_digitChars {n : ℕ} (hn : n < 2 ^ 63)
    (h : (finite false (n * one)).Representable) :
    readUnsigned? (digitChars n ++ rest) = some (.finite false (n * one), rest) := by
  have hlead : (digitChars n).head? = some '0' → (digitChars n).length = 1 := by
    intro hzero
    rcases Nat.eq_zero_or_pos n with rfl | hpos
    · rfl
    · exact absurd hzero (head?_digitChars_ne hpos)
  have hscale : scale? (.ofNat n) 0 1 = some (.finite false (n * one)) := by
    rw [ofNat_of_representable h]
    exact scale?_zero (by rw [ofDecimal_one, mul_one_of_representable h]) rfl
  exact readUnsigned?_append hrest (fun c => isDigit_of_mem_digitChars) Nat.toDigits_ne_nil hlead
    (takeDigits_digitChars hn) hscale

theorem readNumber?_digitChars {n : ℕ} (hn : n < 2 ^ 63)
    (h : (finite false (n * one)).Representable) :
    readNumber? (digitChars n ++ rest) = some (.finite false (n * one), rest) := by
  have hread := readUnsigned?_digitChars hrest hn h
  unfold readNumber?
  split
  · rename_i tail htext
    obtain ⟨c, digits, hdigits⟩ := List.exists_cons_of_ne_nil (digitChars_ne_nil n)
    have hdigit : c.isDigit = true := isDigit_of_mem_digitChars (by rw [hdigits]; simp)
    rw [hdigits, List.cons_append] at htext
    obtain ⟨rfl, -⟩ := List.cons.inj htext
    cases hdigit
  · exact hread

theorem readNumber?_writeNumber {x : Number} (hx : x.Short) :
    readNumber? ((writeNumber x).toList ++ rest) = some (x.oneZero, rest) := by
  obtain ⟨negative, hn, h⟩ := hx
  rename_i n
  have hmagnitude : (finite false (n * one)).Representable := by
    obtain _ | _ | ⟨-, hspacing, hlargest⟩ := h
    exact .finite false hspacing hlargest
  have hunits : (n * one != 0) = (n != 0) := by
    rcases Nat.eq_zero_or_pos n with rfl | hpos
    · rw [Nat.zero_mul]
    · rw [bne_iff_ne.mpr hpos.ne', bne_iff_ne.mpr (Nat.mul_pos hpos Number.one_pos).ne']
  rw [toList_writeNumber negative hn, oneZero, hunits]
  split
  · rename_i hsign
    have hread := readUnsigned?_digitChars hrest hn hmagnitude
    rw [List.cons_append, readNumber?, hread, hsign]
    rfl
  · rename_i hsign
    rw [Bool.not_eq_true] at hsign
    rw [readNumber?_digitChars hrest hn hmagnitude, hsign]

end

end Json
end HclEval
