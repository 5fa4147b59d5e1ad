import HclEval.Json.Quoted
import Mathlib.Data.List.Basic

/-!
Strings of JSON texts read back. What is written for one character is read as that character,
whatever follows, so a whole string is read up to its closing quote.
-/
namespace HclEval.Json

theorem hexDigits_control : ∀ n < 32, hexDigits n 4 =
      ['0', '0', Nat.digitChar (n / 16), Nat.digitChar (n % 16)] ∧
    fourDigits? '0' '0' (Nat.digitChar (n / 16)) (Nat.digitChar (n % 16)) = some n := by
  decide

theorem unquote?_control {c : Char} (hc : c.toNat < 32) (rest : List Char) :
    unquote? ('\\' :: 'u' :: hexDigits c.toNat 4 ++ rest) =
      (unquote? rest).map fun (text, rest) => (c :: text, rest) := by
  obtain ⟨hdigits, hcode⟩ := hexDigits_control c.toNat hc
  have hhigh : ¬ (0xD800 ≤ c.toNat ∧ c.toNat < 0xDC00) := by omega
  have hlow : ¬ (0xDC00 ≤ c.toNat ∧ c.toNat < 0xE000) := by omega
  rw [hdigits]
  cases hrest : unquote? rest <;>
    simp [unquote?, hcode, hhigh, hlow, Char.ofNat_toNat, hrest]

theorem unquote?_plain {c : Char} (hquote : c ≠ '"') (hescape : c ≠ '\\') (hc : ¬ c.toNat < 32)
    (rest : List Char) :
    unquote? (c :: rest) = (unquote? rest).map fun (text, rest) => (c :: text, rest) := by
  rw [unquote?.eq_def]
  split
  · simp_all
  · simp_all
  · simp_all
  · simp_all
  · rename_i h
    obtain ⟨rfl, rfl⟩ := List.cons.inj h
    cases unquote? rest <;> simp [hescape, hc]

theorem unquote?_escapeChar (c : Char) (rest : List Char) :
    unquote? (escapeChar c ++ rest) =
      (unquote? rest).map fun (text, rest) => (c :: text, rest) := by
  unfold escapeChar
  split_ifs with hquote hescape _ _ _ _ _ hcontrol
  iterate 7
    · subst c
      cases hrest : unquote? rest <;> simp [unquote?, hrest]
  · exact unquote?_control hcontrol rest
  · exact unquote?_plain hquote hescape hcontrol rest

theorem unquote?_flatMap_escapeChar (text rest : List Char) :
    unquote? (text.flatMap escapeChar ++ '"' :: rest) = some (text, rest) := by
  induction text with
  | nil => rfl
  | cons c text ih =>
    rw [List.flatMap_cons, List.append_assoc, unquote?_escapeChar, ih]
    rfl

end HclEval.Json
