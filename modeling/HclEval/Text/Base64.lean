/-!
Base64 with the standard alphabet. Three bytes make four characters; a last group of one or two
bytes is padded. Only what encoding produces is decoded: padding is required, and the bits that
padding leaves unused must be zero.
-/
namespace HclEval.Text.Base64

def alphabet : List Char :=
  "ABCDEFGHIJKLMNOPQRSTUVWXYZabcdefghijklmnopqrstuvwxyz0123456789+/".toList

def symbol (n : Nat) : Char := alphabet.getD n 'A'

def value? (c : Char) : Option Nat :=
  let n := c.toNat
  if 65 ≤ n && n ≤ 90 then some (n - 65)
  else if 97 ≤ n && n ≤ 122 then some (n - 71)
  else if 48 ≤ n && n ≤ 57 then some (n + 4)
  else if c = '+' then some 62
  else if c = '/' then some 63
  else none

def encode : List UInt8 → List Char
  | [] => []
  | [a] => [symbol (a.toNat / 4), symbol (a.toNat % 4 * 16), '=', '=']
  | [a, b] =>
    [symbol (a.toNat / 4), symbol (a.toNat % 4 * 16 + b.toNat / 16), symbol (b.toNat % 16 * 4), '=']
  | a :: b :: c :: rest =>
    symbol (a.toNat / 4) :: symbol (a.toNat % 4 * 16 + b.toNat / 16) ::
      symbol (b.toNat % 16 * 4 + c.toNat / 64) :: symbol (c.toNat % 64) :: encode rest

def decode? : List Char → Option (List UInt8)
  | [] => some []
  | a :: b :: c :: d :: rest => do
    let a ← value? a
    let b ← value? b
    if c = '=' then
      if d = '=' ∧ rest = [] ∧ b % 16 = 0 then return [.ofNat (a * 4 + b / 16)] else none
    else
      let c ← value? c
      if d = '=' then
        if rest = [] ∧ c % 4 = 0 then
          return [.ofNat (a * 4 + b / 16), .ofNat (b % 16 * 16 + c / 4)]
        else none
      else
        let d ← value? d
        let tail ← decode? rest
        return .ofNat (a * 4 + b / 16) :: .ofNat (b % 16 * 16 + c / 4) ::
          .ofNat (c % 4 * 64 + d) :: tail
  | _ => none

end HclEval.Text.Base64
