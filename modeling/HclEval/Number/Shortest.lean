import HclEval.Number.Basic

/-!
The fewest decimal digits that read back as the same number, and of several such decimals the
nearest; where two are equally near, the written form decides. A decimal reads back when it lies
between the midpoints to the neighbouring numbers, a midpoint included where the last bit of the
number is even.
-/
namespace HclEval.Number

/-- `digits * 10 ^ exponent`. -/
structure Decimal where
  digits : Nat
  exponent : Int
  deriving DecidableEq, Repr

/-- Which of two equally near decimals is taken: the greater one, or the one whose last digit is
even. -/
inductive Tie where
  | up | even
  deriving DecidableEq, Repr

/-- Does the lower of two neighbouring decimals, of which this one is `rest / den` away, win? -/
def Tie.takesLower (tie : Tie) (lower rest den : Nat) : Bool :=
  2 * rest < den || (2 * rest = den && tie = .even && lower % 2 = 0)

def Decimal.ratio (d : Decimal) : Nat × Nat :=
  if 0 ≤ d.exponent then (d.digits * Nat.pow 10 d.exponent.toNat * one, 1)
  else (d.digits * one, Nat.pow 10 (-d.exponent).toNat)

/-- Distance to the next smaller number; half the spacing right above a power of two. -/
def spacingBelow (units : Nat) : Nat :=
  if spacing units = 1 then 1
  else if units = Nat.pow 2 units.log2 then spacing (units - 1) else spacing units

def readsBack (units : Nat) (d : Decimal) : Bool :=
  let (num, den) := d.ratio
  let low := 2 * units - spacingBelow units
  let high := 2 * units + spacing units
  let even := units / spacing units % 2 == 0
  if even then low * den ≤ 2 * num && 2 * num ≤ high * den
  else low * den < 2 * num && 2 * num < high * den

/-- The greatest `e` with `10 ^ e` at most the magnitude, searched downward from `n - 325`. -/
def leadingExponentBelow (units : Nat) : Nat → Int
  | 0 => -324
  | n + 1 =>
    let e : Int := (n : Int) - 324
    let (num, den) := (Decimal.mk 1 e).ratio
    if num ≤ units * den then e else leadingExponentBelow units n

/-- The exponent of the first decimal digit. The search starts just above the one that the
number of bits allows: a bit is worth less than 0.30103 digits, and one has 1074 of them. -/
def leadingExponent (units : Nat) : Int :=
  leadingExponentBelow units (units.log2 * 30103 / 100000 + 2)

/-- The nearer of the two decimals with spacing `10 ^ exponent` around the magnitude that reads
back. -/
def onGrid? (tie : Tie) (units : Nat) (exponent : Int) : Option Decimal :=
  let (num, den) : Nat × Nat :=
    if 0 ≤ exponent then (units, one * Nat.pow 10 exponent.toNat)
    else (units * Nat.pow 10 (-exponent).toNat, one)
  let below : Decimal := ⟨num / den, exponent⟩
  let above : Decimal := ⟨num / den + 1, exponent⟩
  match readsBack units below, readsBack units above with
  | true, true => some (if tie.takesLower (num / den) (num % den) den then below else above)
  | true, false => some below
  | false, true => some above
  | false, false => none

def firstOnGrid? (tie : Tie) (units : Nat) (exponent : Int) : Nat → Option Decimal
  | 0 => onGrid? tie units exponent
  | n + 1 => (onGrid? tie units exponent).or (firstOnGrid? tie units (exponent - 1) n)

/-- The shortest decimal of a magnitude. Seventeen digits always suffice. -/
def shortest (tie : Tie) (units : Nat) : Decimal :=
  if units = 0 then ⟨0, 0⟩ else (firstOnGrid? tie units (leadingExponent units) 16).getD ⟨0, 0⟩

end HclEval.Number
