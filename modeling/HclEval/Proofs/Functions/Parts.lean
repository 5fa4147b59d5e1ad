import HclEval.Proofs.Functions.Basic
import Mathlib.Data.Int.Notation
import Mathlib.Data.List.Basic

/-!
Parts of texts. Wherever a part is asked to start and however long it is asked to be, its bounds
lie in order within the text. On words of 64 bits the one thing that can go wrong is that start
and length add up to more than a word holds.
-/
namespace HclEval.Builtin

theorem partStart_nonneg (count offset : ℤ) : 0 ≤ partStart count offset := by
  unfold partStart
  omega

theorem partStart_le {count : ℤ} (hcount : 0 ≤ count) (offset : ℤ) :
    partStart count offset ≤ count := by
  unfold partStart
  omega

theorem partStart_le_partEnd {count : ℤ} (hcount : 0 ≤ count) (offset length : ℤ) :
    partStart count offset ≤ partEnd count offset length := by
  have hstart := partStart_le hcount offset
  unfold partEnd
  split <;> omega

theorem partEnd_le (count offset length : ℤ) : partEnd count offset length ≤ count := by
  unfold partEnd
  split <;> omega

theorem part_eq_extract (text : List Char) (offset length : ℤ) :
    part text offset length = text.extract (partStart text.length offset).toNat
      (partEnd text.length offset length).toNat := List.extract_eq_take_drop.symm

/-! Parts as they are computed with words of 64 bits, every sum and every bound checked. -/

def IsWord (n : ℤ) : Prop := Number.minInt64 ≤ n ∧ n ≤ Number.maxInt64

instance (n : ℤ) : Decidable (IsWord n) := inferInstanceAs (Decidable (_ ∧ _))

def wordSum? (a b : ℤ) : Option ℤ := if IsWord (a + b) then some (a + b) else none

def checkedStart? (count offset : ℤ) : Option ℤ :=
  (if offset < 0 then wordSum? count offset else some offset).map fun n => max 0 (min count n)

def checkedEnd? (count first length : ℤ) : Option ℤ :=
  if length < 0 then some count else (wordSum? first length).map (min · count)

def stretch? (text : List Char) (first last : ℤ) : Option (List Char) :=
  if 0 ≤ first ∧ first ≤ last ∧ last ≤ text.length then
    some (text.extract first.toNat last.toNat)
  else none

def checkedPart? (text : List Char) (offset length : ℤ) : Option (List Char) := do
  let first ← checkedStart? text.length offset
  let last ← checkedEnd? text.length first length
  stretch? text first last

section
variable {count : ℤ} (hnonneg : 0 ≤ count) (hcount : count ≤ Number.maxInt64)
include hnonneg hcount

theorem checkedStart?_eq {offset : ℤ} (hoffset : IsWord offset) :
    checkedStart? count offset = some (partStart count offset) := by
  unfold checkedStart? partStart
  split
  · have hword : IsWord (count + offset) := by
      simp only [IsWord, Number.minInt64, Number.maxInt64] at *
      omega
    rw [wordSum?, if_pos hword, Option.map_some]
  · rfl

theorem checkedEnd?_eq (offset : ℤ) {length : ℤ} (hlength : IsWord length) :
    checkedEnd? count (partStart count offset) length =
      if IsWord (partStart count offset + length) then some (partEnd count offset length)
      else none := by
  have hstart := partStart_nonneg count offset
  have hle := partStart_le hnonneg offset
  unfold checkedEnd? partEnd
  split
  · have hword : IsWord (partStart count offset + length) := by
      simp only [IsWord, Number.minInt64, Number.maxInt64] at *
      omega
    rw [if_pos hword]
  · unfold wordSum?
    split <;> rfl

end

theorem stretch?_part (text : List Char) (offset length : ℤ) :
    stretch? text (partStart text.length offset) (partEnd text.length offset length) =
      some (part text offset length) := by
  rw [stretch?, part_eq_extract, if_pos]
  exact ⟨partStart_nonneg .., partStart_le_partEnd (Int.natCast_nonneg _) .., partEnd_le ..⟩

theorem checkedPart?_eq {text : List Char} {offset length : ℤ}
    (hcount : (text.length : ℤ) ≤ Number.maxInt64) (hoffset : IsWord offset)
    (hlength : IsWord length) :
    checkedPart? text offset length =
      if IsWord (partStart text.length offset + length) then some (part text offset length)
      else none := by
  have hnonneg : (0 : ℤ) ≤ text.length := Int.natCast_nonneg _
  simp only [checkedPart?, checkedStart?_eq hnonneg hcount hoffset, Option.bind_eq_bind,
    Option.bind_some, checkedEnd?_eq hnonneg hcount offset hlength]
  split
  · exact stretch?_part text offset length
  · rfl

/-! Parts that start at a place of the text and reach to its end, or are cut off there. -/

theorem part_zero (text : List Char) (k : ℕ) : part text 0 k = text.take k := by
  have hfirst : (partStart text.length 0).toNat = 0 := by
    unfold partStart
    omega
  have hlast : (partEnd text.length 0 k).toNat = min k text.length := by
    unfold partEnd partStart
    omega
  rw [part_eq_extract, hfirst, hlast, List.extract_eq_take_drop, List.drop_zero, Nat.sub_zero,
    List.take_eq_take_iff, Nat.min_assoc, Nat.min_self]

theorem part_to_end (text : List Char) (offset : ℤ) :
    part text offset (-1) = text.drop (partStart text.length offset).toNat := by
  have hlast : (partEnd text.length offset (-1)).toNat = text.length := by
    unfold partEnd
    omega
  rw [part_eq_extract, hlast, List.extract_eq_take_drop, List.take_of_length_le]
  exact Nat.le_of_eq List.length_drop

theorem part_from (text : List Char) (k : ℕ) : part text k (-1) = text.drop k := by
  have hfirst : (partStart text.length k).toNat = min k text.length := by
    unfold partStart
    omega
  rw [part_to_end, hfirst, List.drop_eq_drop_iff, Nat.min_assoc, Nat.min_self]

theorem part_from_end {text : List Char} {k : ℕ} (hpos : 1 ≤ k) (hk : k ≤ text.length) :
    part text (-k) (-1) = text.drop (text.length - k) := by
  have hfirst : (partStart text.length (-k)).toNat = text.length - k := by
    unfold partStart
    omega
  rw [part_to_end, hfirst]

theorem answers_substr (value : String) (x y : Number) :
    Answers "substr" [.string value, .number x, .number y]
      (.ok (text (part value.toList x.toInt64 y.toInt64))) :=
  answers_total (f := partOfText) (fun _ => rfl) _

/-- Of a text whose length is a word, with an offset and a length that are words and a start and a
length whose sum is one, there is always the part from the offset, moved to the nearest place in
the text, to the length or the end: no sum and no bound goes wrong. So a text can be cut at every
place, and its last characters can be taken; this is said of `part`, which by the first is what
`substr` answers with. The sums of `part` have no bounds: that start and length must add up to a
word is what `checkedPart?` shows. -/
theorem substr_stays_within_text (value : String)
    (hcount : (value.length : ℤ) ≤ Number.maxInt64) :
    (∀ offset length : ℤ, IsWord offset → IsWord length →
      IsWord (partStart value.length offset + length) →
      ∃ first last : ℕ, first ≤ last ∧ last ≤ value.length ∧
        (first : ℤ) =
          max 0 (min ↑value.length (if offset < 0 then ↑value.length + offset else offset)) ∧
        (last : ℤ) = (if length < 0 then ↑value.length else min (↑first + length) ↑value.length) ∧
        part value.toList offset length = value.toList.extract first last ∧
        checkedPart? value.toList offset length = some (part value.toList offset length) ∧
        ∀ x y : Number, x.toInt64 = offset → y.toInt64 = length →
          Answers "substr" [.string value, .number x, .number y]
            (.ok (text (part value.toList offset length)))) ∧
    (∀ k : ℕ, part value.toList 0 k ++ part value.toList k (-1) = value.toList) ∧
    ∀ k : ℕ, 1 ≤ k → k ≤ value.length →
      part value.toList (-k) (-1) = value.toList.drop (value.length - k) := by
  have hchars : value.toList.length = value.length := String.length_toList
  refine ⟨fun offset length hoffset hlength hsum => ?_, fun k => ?_, fun k hpos hk => ?_⟩
  · have hnonneg : (0 : ℤ) ≤ value.length := Int.natCast_nonneg _
    have hstart := partStart_nonneg value.length offset
    have hordered := partStart_le_partEnd hnonneg offset length
    have hend := partEnd_le value.length offset length
    have hfirst := Int.toNat_of_nonneg hstart
    have hlast := Int.toNat_of_nonneg (Int.le_trans hstart hordered)
    have hpart := part_eq_extract value.toList offset length
    have hchecked := checkedPart?_eq (hchars ▸ hcount) hoffset hlength
    rw [hchars] at hpart hchecked
    rw [if_pos hsum] at hchecked
    refine ⟨(partStart value.length offset).toNat, (partEnd value.length offset length).toNat,
      by omega, by omega, hfirst, ?_, hpart, hchecked, ?_⟩
    · rw [hlast, hfirst, partEnd]
    · rintro x y rfl rfl
      exact answers_substr value x y
  · rw [part_zero, part_from, List.take_append_drop]
  · rw [part_from_end hpos (hchars ▸ hk), hchars]

/-- `substr("héllo", -2, 9)` is what there is from two characters before the end. -/
theorem substr_stays_within_text_end :
    ("héllo".length : ℤ) ≤ Number.maxInt64 ∧ IsWord (-2) ∧ IsWord 9 ∧
      IsWord (partStart "héllo".length (-2) + 9) ∧
      (Number.finite true (2 * Number.one)).toInt64 = -2 ∧
      (Number.finite false (9 * Number.one)).toInt64 = 9 ∧
      Answers "substr" [.string "héllo", .number (.finite true (2 * Number.one)),
        .number (.finite false (9 * Number.one))] (.ok (text ['l', 'o'])) ∧
      (1 ≤ 3 ∧ 3 ≤ "héllo".length) ∧ part "héllo".toList (-3) (-1) = ['l', 'l', 'o'] := by
  have hcount : ("héllo".length : ℤ) ≤ Number.maxInt64 := by decide
  have hoffset : IsWord (-2) := by decide
  have hlength : IsWord 9 := by decide
  have hsum : IsWord (partStart "héllo".length (-2) + 9) := by decide
  have hx : (Number.finite true (2 * Number.one)).toInt64 = -2 := by decide +kernel
  have hy : (Number.finite false (9 * Number.one)).toInt64 = 9 := by decide +kernel
  have htheorem := substr_stays_within_text "héllo" hcount
  obtain ⟨-, -, -, -, -, -, -, -, hanswer⟩ := htheorem.1 (-2) 9 hoffset hlength hsum
  have hlast := htheorem.2.2 3 (by decide) (by decide)
  exact ⟨hcount, hoffset, hlength, hsum, hx, hy, hanswer _ _ hx hy, by decide, hlast⟩

end HclEval.Builtin
