/-!
UTF-8: the bytes of a text, and the characters of a byte sequence. A sequence that is not valid
is read as characters interrupted by malformed parts, each the longest start of some character
that the next byte breaks off.
-/
namespace HclEval.Text.Utf8

def encodeChar (c : Char) : List UInt8 :=
  let n := c.toNat
  if n < 0x80 then [.ofNat n]
  else if n < 0x800 then [.ofNat (0xC0 + n / 0x40), .ofNat (0x80 + n % 0x40)]
  else if n < 0x10000 then
    [.ofNat (0xE0 + n / 0x1000), .ofNat (0x80 + n / 0x40 % 0x40), .ofNat (0x80 + n % 0x40)]
  else
    [.ofNat (0xF0 + n / 0x40000), .ofNat (0x80 + n / 0x1000 % 0x40),
     .ofNat (0x80 + n / 0x40 % 0x40), .ofNat (0x80 + n % 0x40)]

def encode (text : List Char) : List UInt8 := text.flatMap encodeChar

/-- How many bytes follow a leading byte, the bounds of the first of them, and the leading bits;
`none` for a byte that leads no character of several bytes. -/
def leading? (b : Nat) : Option (Nat × Nat × Nat × Nat) :=
  if 0xC2 ≤ b && b ≤ 0xDF then some (1, 0x80, 0xBF, b - 0xC0)
  else if b == 0xE0 then some (2, 0xA0, 0xBF, 0)
  else if b == 0xED then some (2, 0x80, 0x9F, 0xD)
  else if 0xE1 ≤ b && b ≤ 0xEF then some (2, 0x80, 0xBF, b - 0xE0)
  else if b == 0xF0 then some (3, 0x90, 0xBF, 0)
  else if 0xF1 ≤ b && b ≤ 0xF3 then some (3, 0x80, 0xBF, b - 0xF0)
  else if b == 0xF4 then some (3, 0x80, 0x8F, 4)
  else none

/-- Reads `count` following bytes onto the bits read so far, the first one between the bounds.
Answers the code point or `none`, and the bytes not consumed. -/
def following : (count low high bits : Nat) → List UInt8 → Option Nat × List UInt8
  | 0, _, _, bits, rest => (some bits, rest)
  | _ + 1, _, _, _, [] => (none, [])
  | count + 1, low, high, bits, b :: rest =>
    if low ≤ b.toNat && b.toNat ≤ high then
      following count 0x80 0xBF (bits * 0x40 + b.toNat % 0x40) rest
    else (none, b :: rest)

def first (b : UInt8) (rest : List UInt8) : Option Char × List UInt8 :=
  if b.toNat < 0x80 then (some (Char.ofNat b.toNat), rest)
  else match leading? b.toNat with
    | none => (none, rest)
    | some (count, low, high, bits) =>
      let (code, rest) := following count low high bits rest
      (code.map Char.ofNat, rest)

theorem length_following (count low high bits : Nat) (bytes : List UInt8) :
    (following count low high bits bytes).2.length ≤ bytes.length := by
  induction count generalizing low high bits bytes with
  | zero => simp [following]
  | succ count ih =>
    cases bytes with
    | nil => simp [following]
    | cons b rest =>
      simp only [following]
      split
      · exact Nat.le_succ_of_le (ih _ _ _ _)
      · simp

theorem length_first (b : UInt8) (rest : List UInt8) : (first b rest).2.length ≤ rest.length := by
  unfold first
  split
  · simp
  · split
    · simp
    · exact length_following _ _ _ _ _

/-- The characters of a byte sequence, with `none` in place of every malformed part. -/
def decode : List UInt8 → List (Option Char)
  | [] => []
  | b :: rest => (first b rest).1 :: decode (first b rest).2
termination_by bytes => bytes.length
decreasing_by
  have := length_first b rest
  simp only [List.length_cons]
  omega

def decode? (bytes : List UInt8) : Option (List Char) := (decode bytes).mapM id

/-- The text of any byte sequence, malformed parts becoming replacement characters. -/
def decodeLossy (bytes : List UInt8) : List Char := (decode bytes).map (·.getD '\uFFFD')

end HclEval.Text.Utf8
