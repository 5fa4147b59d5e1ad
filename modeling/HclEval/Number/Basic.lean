/-!
Binary floating point numbers with 53 significant bits. Every finite number is a whole
multiple of the smallest positive one, so a magnitude is kept as a natural number of such
units, and the exact result of an operation is an integer or a ratio of integers.
`ofRatio` is the only place where anything is rounded: to the nearest number, ties to the
one with an even last bit, and to an infinity beyond the largest finite magnitude.
-/
namespace HclEval

/-- A magnitude of `units` stands for `units / 2 ^ 1074`. -/
inductive Number where
  | nan
  | infinite (negative : Bool)
  | finite (negative : Bool) (units : Nat)
  deriving DecidableEq, Repr

namespace Number

def wordCount : Nat := 18446744073709551616

def maxInt64 : Int := 9223372036854775807

def minInt64 : Int := -9223372036854775808

def one : Nat := Nat.pow 2 1074

def largest : Nat := (Nat.pow 2 53 - 1) * Nat.pow 2 2045

/-- Distance between the numbers around a magnitude. -/
def spacing (units : Nat) : Nat :=
  if units < Nat.pow 2 53 then 1 else Nat.pow 2 (units.log2 - 52)

/-- The multiple of `width` nearest to `num / den`, an even multiple where two are equally near. -/
def nearestMultiple (width num den : Nat) : Nat :=
  let whole := num / (den * width)
  let rest := 2 * (num % (den * width))
  if rest < den * width then whole * width
  else if den * width < rest then (whole + 1) * width
  else (whole + whole % 2) * width

def roundUnits (num den : Nat) : Nat :=
  nearestMultiple (spacing (num / den)) num den

def ofUnits (negative : Bool) (units : Nat) : Number :=
  if largest < units then .infinite negative else .finite negative units

def ofRatio (negative : Bool) (num den : Nat) : Number :=
  ofUnits negative (roundUnits num den)

def zero : Number := .finite false 0

def ofNat (n : Nat) : Number := ofRatio false (n * one) 1

def ofInt (n : Int) : Number := ofRatio (n < 0) (n.natAbs * one) 1

def isFinite : Number → Bool
  | .finite _ _ => true
  | _ => false

def isNaN : Number → Bool
  | .nan => true
  | _ => false

def signedUnits (negative : Bool) (units : Nat) : Int :=
  if negative then -(units : Int) else units

/-- Order by value: both zeros are equal and nothing compares with `nan`. -/
def compare : Number → Number → Option Ordering
  | .nan, _ | _, .nan => none
  | .infinite a, .infinite b => some (if a == b then .eq else if a then .lt else .gt)
  | .infinite a, .finite _ _ => some (if a then .lt else .gt)
  | .finite _ _, .infinite b => some (if b then .gt else .lt)
  | .finite a m, .finite b n => some (Ord.compare (signedUnits a m) (signedUnits b n))

instance : BEq Number := ⟨fun a b => a.compare b == some .eq⟩

def less (a b : Number) : Bool := a.compare b == some .lt

def toInt? : Number → Option Int
  | .finite negative units =>
    if units % one = 0 then some (signedUnits negative (units / one)) else none
  | _ => none

def truncated : Number → Nat
  | .finite _ units => units / one
  | _ => 0

/-- The nearest integer toward zero, held between the bounds of 64 bit integers. -/
def toInt64 : Number → Int
  | .nan => 0
  | .infinite negative => if negative then minInt64 else maxInt64
  | .finite negative units =>
    max minInt64 (min maxInt64 (signedUnits negative (units / one)))

theorem beq_eq (a b : Number) : (a == b) = (a.compare b == some .eq) := rfl

end Number
end HclEval
