import HclEval.Number.Layout
import HclEval.Number.Reader
import HclEval.Source.Blank

/-!
Numerals: digits, a fraction, an exponent. A numeral for an integer stands for exactly that integer
as far as 64 bits go, others for the nearest number.
-/
namespace HclEval.Source

inductive Numeral where
  | integer (n : Int)
  /-- A number outside the range of 64 bit integers, or no integer. -/
  | fraction (x : Number)
  deriving DecidableEq, Repr

namespace Numeral

/-- Integers from 0 up to `2 ^ 64` are exact; infinities are no numerals. -/
def ofNumber? (x : Number) : Option Numeral :=
  if !x.isFinite then none
  else match x.toInt? with
    | some n => some (if 0 ≤ n && n < Number.wordCount then integer n else fraction x)
    | none => some (fraction x)

def ofNat? (n : Nat) : Option Numeral := if n < Number.wordCount then some (integer n) else none

/-- Negation is exact down to `-2 ^ 63`. -/
def negate : Numeral → Numeral
  | integer n => if Number.minInt64 ≤ -n then integer (-n) else fraction (Number.ofInt (-n))
  | fraction x => fraction x.neg

def text : Numeral → String
  | integer n => Number.writeInt n
  | fraction x => Number.source.write x

end Numeral

def exponent? : List Char → Option (Int × List Char)
  | c :: rest =>
    if c == 'e' || c == 'E' then
      let (negative, rest) : Bool × List Char := match rest with
        | '-' :: tail => (true, tail)
        | '+' :: tail => (false, tail)
        | tail => (false, tail)
      let digits := rest.takeWhile Char.isDigit
      if digits.isEmpty then none
      else
        let n : Int := Number.ofDigits digits
        some (if negative then -n else n, rest.dropWhile Char.isDigit)
    else none
  | [] => none

def fraction? : List Char → Option (List Char × List Char)
  | '.' :: rest =>
    let digits := rest.takeWhile Char.isDigit
    if digits.isEmpty then none else some (digits, rest.dropWhile Char.isDigit)
  | _ => none

def numeral : Reader Numeral := fun text => do
  let whole := text.takeWhile Char.isDigit
  let rest := text.dropWhile Char.isDigit
  if whole.isEmpty then none
  match fraction? rest, exponent? rest with
  | none, none => return (← Numeral.ofNat? (Number.ofDigits whole), rest)
  | some (places, rest), _ =>
    let (exponent, rest) := (exponent? rest).getD (0, rest)
    let x := Number.ofDecimal false (Number.ofDigits (whole ++ places)) (exponent - places.length)
    return (← Numeral.ofNumber? x, rest)
  | none, some (exponent, rest) =>
    return (← Numeral.ofNumber? (Number.ofDecimal false (Number.ofDigits whole) exponent), rest)

end HclEval.Source
