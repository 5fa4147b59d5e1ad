import HclEval.Text.Quoted
import Mathlib.Data.List.Basic

/-!
Texts in double quotes end where they say they end. What stands for a character determines it, with
anything behind it, and does not begin with a quote; so a quoted text is told apart from any other,
also where more follows.
-/
namespace HclEval.Text

theorem append_inj_of_stops {stops xs ys r r' : List Char} (hxs : ∀ c ∈ xs, c ∉ stops)
    (hys : ∀ c ∈ ys, c ∉ stops) (hr : ∀ c ∈ r.head?, c ∈ stops) (hr' : ∀ c ∈ r'.head?, c ∈ stops)
    (h : xs ++ r = ys ++ r') : xs = ys ∧ r = r' := by
  induction xs generalizing ys with
  | nil =>
    cases ys with
    | nil => exact ⟨rfl, h⟩
    | cons y ys =>
      rw [List.nil_append] at h
      exact absurd (hr y (by rw [h]; rfl)) (hys y List.mem_cons_self)
  | cons x xs ih =>
    cases ys with
    | nil =>
      rw [List.nil_append] at h
      exact absurd (hr' x (by rw [← h]; rfl)) (hxs x List.mem_cons_self)
    | cons y ys =>
      obtain ⟨rfl, htail⟩ := List.cons.inj h
      obtain ⟨rfl, hrest⟩ := ih (fun c hc => hxs c (List.mem_cons_of_mem _ hc))
        (fun c hc => hys c (List.mem_cons_of_mem _ hc)) htail
      exact ⟨rfl, hrest⟩

section Hexadecimal

theorem digitChar_inj : ∀ m < 16, ∀ n < 16, Nat.digitChar m = Nat.digitChar n → m = n := by
  decide

theorem one_lt_length_toDigits {n : ℕ} (h : 16 ≤ n) : 1 < (Nat.toDigits 16 n).length := by
  have hpos := List.length_pos_of_ne_nil (Nat.toDigits_ne_nil (b := 16) (n := n / 16))
  rw [Nat.toDigits_of_base_le (by decide) h, List.length_append, List.length_singleton]
  omega

theorem toDigits_inj {m n : ℕ} (h : Nat.toDigits 16 m = Nat.toDigits 16 n) : m = n := by
  induction m using Nat.strongRecOn generalizing n with
  | _ m ih =>
    rcases Nat.lt_or_ge m 16 with hm | hm <;> rcases Nat.lt_or_ge n 16 with hn | hn
    · rw [Nat.toDigits_of_lt_base hm, Nat.toDigits_of_lt_base hn] at h
      exact digitChar_inj m hm n hn (List.singleton_inj.mp h)
    · have hlength := one_lt_length_toDigits hn
      rw [← h, Nat.toDigits_of_lt_base hm] at hlength
      exact absurd hlength (Nat.lt_irrefl 1)
    · have hlength := one_lt_length_toDigits hm
      rw [h, Nat.toDigits_of_lt_base hn] at hlength
      exact absurd hlength (Nat.lt_irrefl 1)
    · rw [Nat.toDigits_of_base_le (by decide) hm, Nat.toDigits_of_base_le (by decide) hn] at h
      obtain ⟨hinit, hlast⟩ := List.append_inj' h rfl
      have hdiv := ih (m / 16) (by omega) hinit
      have hmod := digitChar_inj (m % 16) (by omega) (n % 16) (by omega)
        (List.singleton_inj.mp hlast)
      omega

theorem notMem_toDigits (n : ℕ) : ∀ c ∈ Nat.toDigits 16 n, c ∉ ['}'] := by
  have hdigit : ∀ n < 16, Nat.digitChar n ∉ ['}'] := by decide
  induction n using Nat.strongRecOn with
  | _ n ih =>
    intro c hc
    rcases Nat.lt_or_ge n 16 with hn | hn
    · rw [Nat.toDigits_of_lt_base hn, List.mem_singleton] at hc
      exact hc ▸ hdigit n hn
    · rw [Nat.toDigits_of_base_le (by decide) hn, List.mem_append, List.mem_singleton] at hc
      rcases hc with hc | rfl
      · exact ih (n / 16) (by omega) c hc
      · exact hdigit (n % 16) (by omega)

end Hexadecimal

namespace Quoted

def letters : List (Char × Char) :=
  [('\x00', '0'), ('\t', 't'), ('\r', 'r'), ('\n', 'n'), ('"', '"'), ('\\', '\\')]

inductive StandsFor (c : Char) : List Char → Prop
  | escaped {letter : Char} (h : (c, letter) ∈ letters) : StandsFor c ['\\', letter]
  | itself (hquote : c ≠ '"') (hbackslash : c ≠ '\\') : StandsFor c [c]
  | point : StandsFor c ('\\' :: 'u' :: '{' :: Nat.toDigits 16 c.toNat ++ ['}'])

theorem standsFor_writeChar (c : Char) : StandsFor c (writeChar c) := by
  unfold writeChar
  split_ifs with hnull htab hreturn hnewline hquote hbackslash
  case pos => exact .escaped (by rw [hnull]; decide)
  case pos => exact .escaped (by rw [htab]; decide)
  case pos => exact .escaped (by rw [hreturn]; decide)
  case pos => exact .escaped (by rw [hnewline]; decide)
  case pos => exact .escaped (by rw [hquote]; decide)
  case pos => exact .escaped (by rw [hbackslash]; decide)
  case pos => exact .itself hquote hbackslash
  case neg => exact .point

theorem StandsFor.append_ne_quote {c : Char} {xs : List Char} (h : StandsFor c xs)
    (r r' : List Char) : xs ++ r ≠ '"' :: r' := by
  cases h with
  | escaped => simp
  | itself hquote => simp [hquote]
  | point => simp

theorem letters_functional :
    ∀ e ∈ letters, e.2 ≠ 'u' ∧ ∀ e' ∈ letters, e.2 = e'.2 → e.1 = e'.1 := by
  decide

theorem StandsFor.append_inj {c d : Char} {xs ys r r' : List Char} (hc : StandsFor c xs)
    (hd : StandsFor d ys) (h : xs ++ r = ys ++ r') : c = d ∧ r = r' := by
  -- a backslash in front, and then the letter, tell the three forms apart
  cases hc with
  | escaped hc =>
    cases hd with
    | escaped hd =>
      obtain ⟨hletter, hrest⟩ := List.cons.inj (List.cons.inj h).2
      exact ⟨(letters_functional _ hc).2 _ hd hletter, hrest⟩
    | itself _ hbackslash => exact absurd (List.cons.inj h).1.symm hbackslash
    | point =>
      exact absurd (List.cons.inj (List.cons.inj h).2).1 (letters_functional _ hc).1
  | itself _ hbackslash =>
    cases hd with
    | itself => exact List.cons.inj h
    | escaped | point => exact absurd (List.cons.inj h).1 hbackslash
  | point =>
    cases hd with
    | escaped hd =>
      exact absurd (List.cons.inj (List.cons.inj h).2).1.symm (letters_functional _ hd).1
    | itself _ hbackslash => exact absurd (List.cons.inj h).1.symm hbackslash
    | point =>
      simp only [List.cons_append, List.cons.injEq, true_and, List.append_assoc] at h
      obtain ⟨hdigits, hrest⟩ := append_inj_of_stops (notMem_toDigits _) (notMem_toDigits _)
        (by simp) (by simp) h
      exact ⟨Char.toNat_inj.mp (toDigits_inj hdigits), (List.cons.inj hrest).2⟩

theorem flatMap_writeChar_append_inj {text text' r r' : List Char}
    (h : text.flatMap writeChar ++ '"' :: r = text'.flatMap writeChar ++ '"' :: r') :
    text = text' ∧ r = r' := by
  induction text generalizing text' with
  | nil =>
    cases text' with
    | nil => exact ⟨rfl, (List.cons.inj h).2⟩
    | cons d text' =>
      -- the quote that ends the one text would begin a character of the other
      rw [List.flatMap_cons, List.append_assoc] at h
      exact absurd h.symm ((standsFor_writeChar d).append_ne_quote _ _)
  | cons c text ih =>
    rw [List.flatMap_cons, List.append_assoc] at h
    cases text' with
    | nil => exact absurd h ((standsFor_writeChar c).append_ne_quote _ _)
    | cons d text' =>
      rw [List.flatMap_cons, List.append_assoc] at h
      obtain ⟨rfl, htail⟩ := (standsFor_writeChar c).append_inj (standsFor_writeChar d) h
      obtain ⟨rfl, hrest⟩ := ih htail
      exact ⟨rfl, hrest⟩

theorem write_append_inj {text text' r r' : List Char}
    (h : write text ++ r = write text' ++ r') : text = text' ∧ r = r' := by
  simp only [write, List.cons_append, List.append_assoc, List.nil_append, List.cons.injEq,
    true_and] at h
  exact flatMap_writeChar_append_inj h

end Quoted
end HclEval.Text
