import HclEval.Text.Base64
import Mathlib.Data.List.Basic
import Mathlib.Data.Nat.Notation

/-!
Base64 texts. Each symbol stands for six bits, and four of them for three bytes. Decoding accepts
exactly what encoding produces, so every sequence of bytes has one text.
-/
namespace HclEval.Text.Base64

theorem value?_symbol : ∀ n < 64, value? (symbol n) = some n := by decide +kernel

theorem symbol_ne_pad : ∀ n < 64, symbol n ≠ '=' := by decide +kernel

theorem toNat_lt_of_value? {c : Char} {n : ℕ} (h : value? c = some n) : c.toNat < 128 := by
  by_contra hlarge
  have hplus : c ≠ '+' := fun hc => hlarge (hc ▸ by decide)
  have hslash : c ≠ '/' := fun hc => hlarge (hc ▸ by decide)
  unfold value? at h
  grind

theorem exists_symbol_of_value? {c : Char} {n : ℕ} (h : value? c = some n) :
    n < 64 ∧ c = symbol n := by
  have hall : ∀ k < 128, ∀ n ∈ value? (.ofNat k), n < 64 ∧ .ofNat k = symbol n := by decide +kernel
  have hc := hall c.toNat (toNat_lt_of_value? h) n
  rw [Char.ofNat_toNat] at hc
  exact hc h

section
variable {a b c d : ℕ} (ha : a < 64) (hb : b < 64)
include ha hb

theorem decode?_one (hunused : b % 16 = 0) :
    decode? [symbol a, symbol b, '=', '='] = some [.ofNat (a * 4 + b / 16)] := by
  simp only [decode?, value?_symbol a ha, value?_symbol b hb, hunused, Option.bind_eq_bind,
    Option.bind_some, Option.pure_def, and_self, if_true]

theorem encode_one (hunused : b % 16 = 0) :
    encode [.ofNat (a * 4 + b / 16)] = [symbol a, symbol b, '=', '='] := by
  have hbyte : (UInt8.ofNat (a * 4 + b / 16)).toNat = a * 4 + b / 16 :=
    UInt8.toNat_ofNat_of_lt' (show _ < 256 by omega)
  have hfirst : (a * 4 + b / 16) / 4 = a := by omega
  have hsecond : (a * 4 + b / 16) % 4 * 16 = b := by omega
  rw [encode, hbyte, hfirst, hsecond]

variable (hc : c < 64)
include hc

theorem decode?_two (hunused : c % 4 = 0) :
    decode? [symbol a, symbol b, symbol c, '='] =
      some [.ofNat (a * 4 + b / 16), .ofNat (b % 16 * 16 + c / 4)] := by
  simp only [decode?, value?_symbol a ha, value?_symbol b hb, value?_symbol c hc,
    symbol_ne_pad c hc, hunused, Option.bind_eq_bind, Option.bind_some, Option.pure_def, and_self,
    if_true, if_false]

theorem encode_two (hunused : c % 4 = 0) :
    encode [.ofNat (a * 4 + b / 16), .ofNat (b % 16 * 16 + c / 4)] =
      [symbol a, symbol b, symbol c, '='] := by
  have hbyte : (UInt8.ofNat (a * 4 + b / 16)).toNat = a * 4 + b / 16 :=
    UInt8.toNat_ofNat_of_lt' (show _ < 256 by omega)
  have hbyte' : (UInt8.ofNat (b % 16 * 16 + c / 4)).toNat = b % 16 * 16 + c / 4 :=
    UInt8.toNat_ofNat_of_lt' (show _ < 256 by omega)
  have hfirst : (a * 4 + b / 16) / 4 = a := by omega
  have hsecond : (a * 4 + b / 16) % 4 * 16 + (b % 16 * 16 + c / 4) / 16 = b := by omega
  have hthird : (b % 16 * 16 + c / 4) % 16 * 4 = c := by omega
  rw [encode, hbyte, hbyte', hfirst, hsecond, hthird]

variable (hd : d < 64)
include hd

theorem decode?_three (rest : List Char) :
    decode? (symbol a :: symbol b :: symbol c :: symbol d :: rest) =
      (decode? rest).map fun tail => .ofNat (a * 4 + b / 16) :: .ofNat (b % 16 * 16 + c / 4) ::
        .ofNat (c % 4 * 64 + d) :: tail := by
  simp only [decode?, value?_symbol a ha, value?_symbol b hb, value?_symbol c hc,
    value?_symbol d hd, symbol_ne_pad c hc, symbol_ne_pad d hd, Option.bind_eq_bind,
    Option.bind_some, Option.pure_def, if_false]
  cases decode? rest <;> rfl

theorem encode_three (rest : List UInt8) :
    encode (.ofNat (a * 4 + b / 16) :: .ofNat (b % 16 * 16 + c / 4) :: .ofNat (c % 4 * 64 + d) ::
      rest) = symbol a :: symbol b :: symbol c :: symbol d :: encode rest := by
  have hbyte : (UInt8.ofNat (a * 4 + b / 16)).toNat = a * 4 + b / 16 :=
    UInt8.toNat_ofNat_of_lt' (show _ < 256 by omega)
  have hbyte' : (UInt8.ofNat (b % 16 * 16 + c / 4)).toNat = b % 16 * 16 + c / 4 :=
    UInt8.toNat_ofNat_of_lt' (show _ < 256 by omega)
  have hbyte'' : (UInt8.ofNat (c % 4 * 64 + d)).toNat = c % 4 * 64 + d :=
    UInt8.toNat_ofNat_of_lt' (show _ < 256 by omega)
  have hfirst : (a * 4 + b / 16) / 4 = a := by omega
  have hsecond : (a * 4 + b / 16) % 4 * 16 + (b % 16 * 16 + c / 4) / 16 = b := by omega
  have hthird : (b % 16 * 16 + c / 4) % 16 * 4 + (c % 4 * 64 + d) / 64 = c := by omega
  have hfourth : (c % 4 * 64 + d) % 64 = d := by omega
  rw [encode, hbyte, hbyte', hbyte'', hfirst, hsecond, hthird, hfourth]

end

theorem ofNat_of_eq_toNat {a : UInt8} {n : ℕ} (h : n = a.toNat) : UInt8.ofNat n = a := by
  rw [h, UInt8.ofNat_toNat]

theorem decode?_encode (bytes : List UInt8) : decode? (encode bytes) = some bytes := by
  fun_induction encode bytes with
  | case1 => rfl
  | case2 a =>
    have ha := a.toNat_lt
    rw [decode?_one (by omega) (by omega) (by omega), ofNat_of_eq_toNat (a := a) (by omega)]
  | case3 a b =>
    have ha := a.toNat_lt
    have hb := b.toNat_lt
    rw [decode?_two (by omega) (by omega) (by omega) (by omega),
      ofNat_of_eq_toNat (a := a) (by omega), ofNat_of_eq_toNat (a := b) (by omega)]
  | case4 a b c rest ih =>
    have ha := a.toNat_lt
    have hb := b.toNat_lt
    have hc := c.toNat_lt
    rw [decode?_three (by omega) (by omega) (by omega) (by omega), ih,
      ofNat_of_eq_toNat (a := a) (by omega), ofNat_of_eq_toNat (a := b) (by omega),
      ofNat_of_eq_toNat (a := c) (by omega), Option.map_some]

theorem eq_encode_of_decode? {text : List Char} {bytes : List UInt8}
    (h : decode? text = some bytes) : text = encode bytes := by
  induction text using decode?.induct generalizing bytes with
  | case1 =>
    cases h
    rfl
  | case2 a b c d rest ih =>
    simp only [decode?, Option.bind_eq_bind, Option.bind_eq_some_iff] at h
    obtain ⟨x, hx, y, hy, h⟩ := h
    obtain ⟨ha, rfl⟩ := exists_symbol_of_value? hx
    obtain ⟨hb, rfl⟩ := exists_symbol_of_value? hy
    split at h
    case isTrue hpad =>
      split at h <;> cases h
      rename_i hend
      obtain ⟨rfl, rfl, hunused⟩ := hend
      rw [encode_one ha hb hunused, hpad]
    case isFalse =>
      rw [Option.bind_eq_some_iff] at h
      obtain ⟨z, hz, h⟩ := h
      obtain ⟨hc, rfl⟩ := exists_symbol_of_value? hz
      split at h
      case isTrue hpad =>
        split at h <;> cases h
        rename_i hend
        obtain ⟨rfl, hunused⟩ := hend
        rw [encode_two ha hb hc hunused, hpad]
      case isFalse =>
        simp only [Option.bind_eq_some_iff] at h
        obtain ⟨w, hw, tail, htail, h⟩ := h
        obtain ⟨hd, rfl⟩ := exists_symbol_of_value? hw
        cases h
        rw [encode_three ha hb hc hd, ih htail]
  | case3 text hnil hcons =>
    rw [decode?.eq_3 text hnil hcons] at h
    cases h

theorem decode?_eq_some_iff {text : List Char} {bytes : List UInt8} :
    decode? text = some bytes ↔ text = encode bytes :=
  ⟨eq_encode_of_decode?, fun h => h ▸ decode?_encode bytes⟩

end HclEval.Text.Base64
