import HclEval.Number.Basic

/-!
Arithmetic on numbers: the exact result, rounded once.
-/
namespace HclEval.Number

def neg : Number → Number
  | .nan => .nan
  | .infinite negative => .infinite !negative
  | .finite negative units => .finite (!negative) units

def abs : Number → Number
  | .nan => .nan
  | .infinite _ => .infinite false
  | .finite _ units => .finite false units

/-- A sum that cancels out is positive zero; two negative zeros stay negative. -/
def add : Number → Number → Number
  | .nan, _ | _, .nan => .nan
  | .infinite a, .infinite b => if a == b then .infinite a else .nan
  | .infinite a, .finite _ _ => .infinite a
  | .finite _ _, .infinite b => .infinite b
  | .finite a m, .finite b n =>
    let sum := signedUnits a m + signedUnits b n
    if sum = 0 then .finite (a && b) 0 else ofRatio (sum < 0) sum.natAbs 1

def sub (a b : Number) : Number := add a b.neg

def mul : Number → Number → Number
  | .nan, _ | _, .nan => .nan
  | .infinite a, .infinite b => .infinite (a != b)
  | .infinite a, .finite b n => if n = 0 then .nan else .infinite (a != b)
  | .finite a m, .infinite b => if m = 0 then .nan else .infinite (a != b)
  | .finite a m, .finite b n => ofRatio (a != b) (m * n) one

def div : Number → Number → Number
  | .nan, _ | _, .nan => .nan
  | .infinite _, .infinite _ => .nan
  | .infinite a, .finite b _ => .infinite (a != b)
  | .finite a _, .infinite b => .finite (a != b) 0
  | .finite a m, .finite b n =>
    if n = 0 then (if m = 0 then .nan else .infinite (a != b))
    else ofRatio (a != b) (m * one) n

/-- The remainder has the sign of the dividend and is exact. -/
def rem : Number → Number → Number
  | .nan, _ | _, .nan => .nan
  | .infinite _, _ => .nan
  | .finite a m, .infinite _ => .finite a m
  | .finite a m, .finite _ n => if n = 0 then .nan else .finite a (m % n)

def wholeUnits (up : Bool) (units : Nat) : Nat :=
  if up && units % one != 0 then (units / one + 1) * one else units / one * one

def floor : Number → Number
  | .finite negative units => .finite negative (wholeUnits negative units)
  | other => other

def ceil : Number → Number
  | .finite negative units => .finite negative (wholeUnits (!negative) units)
  | other => other

/-- The larger of two numbers, the first of two equal ones; `nan` only if both are. -/
def max (a b : Number) : Number :=
  if a.isNaN then b else if a.less b then b else a

def min (a b : Number) : Number :=
  if a.isNaN then b else if b.less a then b else a

end HclEval.Number
