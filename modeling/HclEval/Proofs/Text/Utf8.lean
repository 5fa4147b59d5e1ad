import HclEval.Text.Utf8
import Mathlib.Data.List.Basic
import Mathlib.Data.Nat.Notation

/-!
UTF-8. The sequences of bytes that stand for a character are those that encoding makes and those
that decoding takes for one. So a text has one sequence of bytes, and bytes without malformed parts
are those of a text.
-/
namespace HclEval.Text.Utf8

/-- The bytes of a character: a leading byte with the high bits, and bytes with six bits each. Of
the first six only those may be there that make the sequence the shortest one, and of a character
that exists. -/
inductive Spells : Char → List UInt8 → Prop
  | one {n : ℕ} (hn : n < 0x80) : Spells (.ofNat n) [.ofNat n]
  | two {k d : ℕ} (hk : 2 ≤ k ∧ k < 0x20) (hd : d < 0x40) :
      Spells (.ofNat (k * 0x40 + d)) [.ofNat (0xC0 + k), .ofNat (0x80 + d)]
  | three {k d e : ℕ} (hk : k < 0x10) (hd : d < 0x40) (he : e < 0x40)
      (shortest : k = 0 → 0x20 ≤ d) (scalar : k = 0xD → d < 0x20) :
      Spells (.ofNat ((k * 0x40 + d) * 0x40 + e))
        [.ofNat (0xE0 + k), .ofNat (0x80 + d), .ofNat (0x80 + e)]
  | four {k d e f : ℕ} (hk : k < 5) (hd : d < 0x40) (he : e < 0x40) (hf : f < 0x40)
      (shortest : k = 0 → 0x10 ≤ d) (last : k = 4 → d < 0x10) :
      Spells (.ofNat (((k * 0x40 + d) * 0x40 + e) * 0x40 + f))
        [.ofNat (0xF0 + k), .ofNat (0x80 + d), .ofNat (0x80 + e), .ofNat (0x80 + f)]

theorem Spells.exists_cons {c : Char} {bytes : List UInt8} (h : Spells c bytes) :
    ∃ b more, bytes = b :: more := by
  cases h <;> exact ⟨_, _, rfl⟩

theorem toNat_ofNat_of_isValidChar {n : ℕ} (h : n.isValidChar) : (Char.ofNat n).toNat = n := by
  rw [Char.ofNat, dif_pos h]
  rfl

theorem Spells.eq_encodeChar {c : Char} {bytes : List UInt8} (h : Spells c bytes) :
    bytes = encodeChar c := by
  cases h with
  | @one n hn =>
    have hcode : (Char.ofNat n).toNat = n := toNat_ofNat_of_isValidChar (.inl (by omega))
    rw [encodeChar, hcode, if_pos hn]
  | @two k d hk hd =>
    have hcode : (Char.ofNat (k * 0x40 + d)).toNat = k * 0x40 + d :=
      toNat_ofNat_of_isValidChar (.inl (by omega))
    have hlead : (k * 0x40 + d) / 0x40 = k := by omega
    have hlast : (k * 0x40 + d) % 0x40 = d := by omega
    rw [encodeChar, hcode, if_neg (by omega), if_pos (by omega), hlead, hlast]
  | @three k d e hk hd he shortest scalar =>
    have hvalid : ((k * 0x40 + d) * 0x40 + e).isValidChar := by
      unfold Nat.isValidChar
      omega
    have hlead : ((k * 0x40 + d) * 0x40 + e) / 0x1000 = k := by omega
    have hsecond : ((k * 0x40 + d) * 0x40 + e) / 0x40 % 0x40 = d := by omega
    have hlast : ((k * 0x40 + d) * 0x40 + e) % 0x40 = e := by omega
    rw [encodeChar, toNat_ofNat_of_isValidChar hvalid, if_neg (by omega), if_neg (by omega),
      if_pos (by omega), hlead, hsecond, hlast]
  | @four k d e f hk hd he hf shortest last =>
    have hvalid : (((k * 0x40 + d) * 0x40 + e) * 0x40 + f).isValidChar := by
      unfold Nat.isValidChar
      omega
    have hlead : (((k * 0x40 + d) * 0x40 + e) * 0x40 + f) / 0x40000 = k := by omega
    have hsecond : (((k * 0x40 + d) * 0x40 + e) * 0x40 + f) / 0x1000 % 0x40 = d := by omega
    have hthird : (((k * 0x40 + d) * 0x40 + e) * 0x40 + f) / 0x40 % 0x40 = e := by omega
    have hlast : (((k * 0x40 + d) * 0x40 + e) * 0x40 + f) % 0x40 = f := by omega
    rw [encodeChar, toNat_ofNat_of_isValidChar hvalid, if_neg (by omega), if_neg (by omega),
      if_neg (by omega), hlead, hsecond, hthird, hlast]

theorem spells_encodeChar (c : Char) : Spells c (encodeChar c) := by
  have hvalid : c.toNat.isValidChar := c.valid
  have hcode : Char.ofNat c.toNat = c := Char.ofNat_toNat c
  unfold Nat.isValidChar at hvalid
  unfold encodeChar
  generalize c.toNat = n at *
  subst hcode
  dsimp only
  split_ifs with hone htwo hthree
  · exact .one hone
  · have hbits : n = n / 0x40 * 0x40 + n % 0x40 := by omega
    have h := Spells.two (k := n / 0x40) (d := n % 0x40) (by omega) (by omega)
    rwa [← hbits] at h
  · have hbits : n = (n / 0x1000 * 0x40 + n / 0x40 % 0x40) * 0x40 + n % 0x40 := by omega
    have h := Spells.three (k := n / 0x1000) (d := n / 0x40 % 0x40) (e := n % 0x40) (by omega)
      (by omega) (by omega) (by omega) (by omega)
    rwa [← hbits] at h
  · have hbits : n = ((n / 0x40000 * 0x40 + n / 0x1000 % 0x40) * 0x40 + n / 0x40 % 0x40) * 0x40 +
        n % 0x40 := by omega
    have h := Spells.four (k := n / 0x40000) (d := n / 0x1000 % 0x40) (e := n / 0x40 % 0x40)
      (f := n % 0x40) (by omega) (by omega) (by omega) (by omega) (by omega) (by omega)
    rwa [← hbits] at h

/-! What leads a character, and what follows. -/

theorem leading?_two {k : ℕ} (hk : 2 ≤ k ∧ k < 0x20) :
    leading? (0xC0 + k) = some (1, 0x80, 0xBF, k) := by
  have hbits : 0xC0 + k - 0xC0 = k := by omega
  rw [leading?, if_pos (by simp; omega), hbits]

theorem leading?_three : ∀ k < 0x10, leading? (0xE0 + k) =
    some (2, if k = 0 then 0xA0 else 0x80, if k = 0xD then 0x9F else 0xBF, k) := by
  decide

theorem leading?_four : ∀ k < 5, leading? (0xF0 + k) =
    some (3, if k = 0 then 0x90 else 0x80, if k = 4 then 0x8F else 0xBF, k) := by
  decide

theorem leads_of_leading? : ∀ b < 0x100, (leading? b).isSome →
    (∃ k < 0x20, 2 ≤ k ∧ b = 0xC0 + k) ∨ (∃ k < 0x10, b = 0xE0 + k) ∨ ∃ k < 5, b = 0xF0 + k := by
  decide +kernel

theorem following_cons {count low high bits d : ℕ} (hd : d < 0x40) (hlow : low ≤ 0x80 + d)
    (hhigh : 0x80 + d ≤ high) (rest : List UInt8) :
    following (count + 1) low high bits (.ofNat (0x80 + d) :: rest) =
      following count 0x80 0xBF (bits * 0x40 + d) rest := by
  have hbyte : (UInt8.ofNat (0x80 + d)).toNat = 0x80 + d :=
    UInt8.toNat_ofNat_of_lt' (show _ < 256 by omega)
  have hbits : (0x80 + d) % 0x40 = d := by omega
  simp only [following, hbyte, hbits, hlow, hhigh, decide_true, Bool.and_self, if_true]

theorem exists_of_following {count low high bits code : ℕ} {bytes rest : List UInt8}
    (hlow : 0x80 ≤ low) (hhigh : high ≤ 0xBF)
    (h : following (count + 1) low high bits bytes = (some code, rest)) :
    ∃ d more, d < 0x40 ∧ low ≤ 0x80 + d ∧ 0x80 + d ≤ high ∧ bytes = .ofNat (0x80 + d) :: more ∧
      following count 0x80 0xBF (bits * 0x40 + d) more = (some code, rest) := by
  cases bytes with
  | nil => cases h
  | cons b more =>
    rw [following] at h
    split at h
    case isFalse => cases h
    case isTrue hbounds =>
      simp only [Bool.and_eq_true, decide_eq_true_eq] at hbounds
      have hbits : b.toNat % 0x40 = b.toNat - 0x80 := by omega
      have hbyte : 0x80 + (b.toNat - 0x80) = b.toNat := by omega
      refine ⟨b.toNat - 0x80, more, by omega, by omega, by omega, ?_, hbits ▸ h⟩
      rw [hbyte, UInt8.ofNat_toNat]

theorem Spells.first {c : Char} {b : UInt8} {more : List UInt8} (h : Spells c (b :: more))
    (rest : List UInt8) : first b (more ++ rest) = (some c, rest) := by
  cases h with
  | @one n hn =>
    have hbyte : (UInt8.ofNat n).toNat = n := UInt8.toNat_ofNat_of_lt' (show _ < 256 by omega)
    rw [Utf8.first, hbyte, if_pos hn]
    rfl
  | @two k d hk hd =>
    have hbyte : (UInt8.ofNat (0xC0 + k)).toNat = 0xC0 + k :=
      UInt8.toNat_ofNat_of_lt' (show _ < 256 by omega)
    rw [Utf8.first, hbyte, if_neg (by omega), leading?_two hk]
    simp only [List.cons_append, List.nil_append]
    rw [following_cons hd (by omega) (by omega), following]
    rfl
  | @three k d e hk hd he shortest scalar =>
    have hbyte : (UInt8.ofNat (0xE0 + k)).toNat = 0xE0 + k :=
      UInt8.toNat_ofNat_of_lt' (show _ < 256 by omega)
    rw [Utf8.first, hbyte, if_neg (by omega), leading?_three k hk]
    simp only [List.cons_append, List.nil_append]
    rw [following_cons hd (by split <;> omega) (by split <;> omega),
      following_cons he (by omega) (by omega), following]
    rfl
  | @four k d e f hk hd he hf shortest last =>
    have hbyte : (UInt8.ofNat (0xF0 + k)).toNat = 0xF0 + k :=
      UInt8.toNat_ofNat_of_lt' (show _ < 256 by omega)
    rw [Utf8.first, hbyte, if_neg (by omega), leading?_four k hk]
    simp only [List.cons_append, List.nil_append]
    rw [following_cons hd (by split <;> omega) (by split <;> omega),
      following_cons he (by omega) (by omega), following_cons hf (by omega) (by omega), following]
    rfl

theorem exists_spells_of_first {c : Char} {b : UInt8} {bytes rest : List UInt8}
    (h : first b bytes = (some c, rest)) : ∃ more, bytes = more ++ rest ∧ Spells c (b :: more) := by
  have hlead : UInt8.ofNat b.toNat = b := UInt8.ofNat_toNat
  have hlt := b.toNat_lt
  unfold first at h
  generalize b.toNat = n at *
  subst hlead
  split at h
  case isTrue hascii =>
    cases h
    exact ⟨[], rfl, .one hascii⟩
  case isFalse =>
    split at h
    case h_1 => cases h
    case h_2 count low high bits hleading =>
      obtain ⟨code, hfollowing, rfl⟩ : ∃ code,
          following count low high bits bytes = (some code, rest) ∧ Char.ofNat code = c := by
        rcases hf : following count low high bits bytes with ⟨code?, rest'⟩
        rw [hf] at h
        obtain ⟨hcode, rfl⟩ := Prod.mk.inj h
        obtain ⟨code, rfl, hc⟩ := Option.map_eq_some_iff.mp hcode
        exact ⟨code, rfl, hc⟩
      -- the first byte tells how many follow, and bounds the second one
      have hleads := leads_of_leading? n hlt (by rw [hleading]; rfl)
      rcases hleads with ⟨k, hk, hk', rfl⟩ | ⟨k, hk, rfl⟩ | ⟨k, hk, rfl⟩
      case inl =>
        rw [leading?_two ⟨hk', hk⟩] at hleading
        cases hleading
        obtain ⟨d, more, hd, -, -, rfl, hlast⟩ :=
          exists_of_following (by omega) (by omega) hfollowing
        cases hlast
        exact ⟨_, rfl, .two ⟨hk', hk⟩ hd⟩
      case inr.inl =>
        rw [leading?_three k hk] at hleading
        cases hleading
        obtain ⟨d, more, hd, hlow, hhigh, rfl, hsecond⟩ :=
          exists_of_following (by split <;> omega) (by split <;> omega) hfollowing
        obtain ⟨e, more, he, -, -, rfl, hlast⟩ := exists_of_following (by omega) (by omega) hsecond
        cases hlast
        refine ⟨_, rfl, .three hk hd he (fun hzero => ?_) fun hlast => ?_⟩
        · rw [if_pos hzero] at hlow
          omega
        · rw [if_pos hlast] at hhigh
          omega
      case inr.inr =>
        rw [leading?_four k hk] at hleading
        cases hleading
        obtain ⟨d, more, hd, hlow, hhigh, rfl, hsecond⟩ :=
          exists_of_following (by split <;> omega) (by split <;> omega) hfollowing
        obtain ⟨e, more, he, -, -, rfl, hthird⟩ := exists_of_following (by omega) (by omega) hsecond
        obtain ⟨f, more, hf, -, -, rfl, hlast⟩ := exists_of_following (by omega) (by omega) hthird
        cases hlast
        refine ⟨_, rfl, .four hk hd he hf (fun hzero => ?_) fun hlast => ?_⟩
        · rw [if_pos hzero] at hlow
          omega
        · rw [if_pos hlast] at hhigh
          omega

/-! Whole texts. -/

theorem decode_encode (text : List Char) : decode (encode text) = text.map some := by
  induction text with
  | nil =>
    rw [encode, List.flatMap_nil, decode]
    rfl
  | cons c text ih =>
    have hcons : encode (c :: text) = encodeChar c ++ encode text := List.flatMap_cons
    have hspells := spells_encodeChar c
    obtain ⟨b, more, hbytes⟩ := hspells.exists_cons
    rw [hbytes] at hcons hspells
    rw [hcons, List.cons_append, decode, hspells.first, ih, List.map_cons]

theorem eq_encode_of_decode {text : List Char} {bytes : List UInt8}
    (h : decode bytes = text.map some) : bytes = encode text := by
  fun_induction decode bytes generalizing text with
  | case1 =>
    obtain rfl := List.map_eq_nil_iff.mp h.symm
    rfl
  | case2 b rest ih =>
    obtain ⟨c, text, rfl, hc, htext⟩ := List.map_eq_cons_iff.mp h.symm
    obtain ⟨more, hmore, hspells⟩ := exists_spells_of_first (Prod.ext hc.symm rfl)
    have hcons : encode (c :: text) = encodeChar c ++ encode text := List.flatMap_cons
    rw [hcons, ← hspells.eq_encodeChar, ← ih htext.symm, List.cons_append, ← hmore]

theorem mapM_id_eq_some_iff {α : Type} {xs : List (Option α)} {ys : List α} :
    xs.mapM id = some ys ↔ xs = ys.map some := by
  induction xs generalizing ys with
  | nil => cases ys <;> simp
  | cons x xs ih => cases ys <;> cases x <;> simp [Option.bind_eq_some_iff, ih, and_comm]

theorem decode?_eq_some_iff {text : List Char} {bytes : List UInt8} :
    decode? bytes = some text ↔ bytes = encode text := by
  rw [decode?, mapM_id_eq_some_iff]
  exact ⟨eq_encode_of_decode, fun h => h ▸ decode_encode text⟩

theorem decodeLossy_encode (text : List Char) : decodeLossy (encode text) = text := by
  rw [decodeLossy, decode_encode, List.map_map]
  exact List.map_id text

end HclEval.Text.Utf8
