import HclEval.Number.Arithmetic
import HclEval.Number.Shortest

/-!
Written forms of numbers. A layout decides from the exponent of the first digit whether a
number is written out in full or with an exponent, and how; the digits are always the shortest.
-/
namespace HclEval.Number

structure Layout where
  /-- Is a number whose first digit has this exponent written out in full? -/
  positional : Int → Bool
  plus : Bool
  /-- A number without fraction is written with `.0`. -/
  point : Bool
  tie : Tie

def digitChars (n : Nat) : List Char := Nat.toDigits 10 n

def writePositional (point : Bool) (digits : List Char) (exponent : Int) : List Char :=
  if 0 ≤ exponent then
    digits ++ List.replicate exponent.toNat '0' ++ (if point then ['.', '0'] else [])
  else
    let places := (-exponent).toNat
    let padded := List.replicate (places + 1 - digits.length) '0' ++ digits
    padded.take (padded.length - places) ++ '.' :: padded.drop (padded.length - places)

def writeExponent (plus : Bool) (digits : List Char) (exponent : Int) : List Char :=
  let mantissa := match digits with
    | [] => []
    | [d] => [d]
    | d :: rest => d :: '.' :: rest
  let sign := if exponent < 0 then ['-'] else if plus then ['+'] else []
  mantissa ++ 'e' :: sign ++ digitChars exponent.natAbs

def trimZeros (d : Decimal) : List Char × Int :=
  let digits := digitChars d.digits
  let kept := (digits.reverse.dropWhile (· == '0')).reverse
  if kept.isEmpty then (['0'], 0) else (kept, d.exponent + (digits.length - kept.length))

def Layout.writeUnits (layout : Layout) (units : Nat) : List Char :=
  let (digits, exponent) := trimZeros (shortest layout.tie units)
  let leading := exponent + digits.length - 1
  if units = 0 || layout.positional leading then writePositional layout.point digits exponent
  else writeExponent layout.plus digits leading

def Layout.write (layout : Layout) : Number → String
  | .nan => "NaN"
  | .infinite negative => if negative then "-inf" else "inf"
  | .finite negative units =>
    String.ofList ((if negative then ['-'] else []) ++ layout.writeUnits units)

def plain : Layout := ⟨fun _ => true, false, false, .up⟩

/-- Numbers of a document written as text: in full from `0.00001` up to sixteen digits. -/
def document : Layout := ⟨fun e => -5 ≤ e && e ≤ 15, true, false, .even⟩

def source : Layout := { document with plus := false }

/-- Numbers in listings of a tree always show a fraction, and are in full from `0.0001` up. -/
def listing : Layout := ⟨fun e => -4 ≤ e && e ≤ 15, false, true, .up⟩

/-- Six places after the point, a half going to the even neighbour. -/
def writeFixed : Number → String
  | .nan => "NaN"
  | .infinite negative => if negative then "-inf" else "inf"
  | .finite negative units =>
    let millionths := nearestMultiple 1 (units * 1000000) one
    String.ofList ((if negative then ['-'] else []) ++
      writePositional false (digitChars millionths) (-6))

def writeInt (n : Int) : String :=
  String.ofList ((if n < 0 then ['-'] else []) ++ digitChars n.natAbs)

def shortInt? (x : Number) : Option Int :=
  x.toInt?.filter fun n => -maxInt64 ≤ n && n ≤ maxInt64

/-- The string form: integers up to `2 ^ 63` exactly, all other numbers in full. -/
def text (x : Number) : String :=
  match shortInt? x with
  | some n => writeInt n
  | none => plain.write x

end HclEval.Number
