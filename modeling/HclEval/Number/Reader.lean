import HclEval.Number.Basic

/-!
Reading decimal numerals: an optional sign, digits with an optional point among or around
them, an optional exponent; or one of the words for infinity and `nan`, in any letter case.
The result is the nearest number.
-/
namespace HclEval.Number

def digitValue (c : Char) : Nat := c.toNat - '0'.toNat

def ofDigits (digits : List Char) : Nat :=
  digits.foldl (fun n c => 10 * n + digitValue c) 0

/-- The number nearest to `digits * 10 ^ exponent`. Decimals far outside the range are not
computed: from 310 places before the point on all overflow, beyond 330 after it all vanish. -/
def ofDecimal (negative : Bool) (digits : Nat) (exponent : Int) : Number :=
  let leading := (Nat.toDigits 10 digits).length + exponent
  if digits = 0 || leading < -330 then .finite negative 0
  else if 310 < leading then .infinite negative
  else if 0 ≤ exponent then ofRatio negative (digits * Nat.pow 10 exponent.toNat * one) 1
  else ofRatio negative (digits * one) (Nat.pow 10 (-exponent).toNat)

def readExponent? (text : List Char) : Option Int :=
  let (negative, digits) : Bool × List Char := match text with
    | '-' :: rest => (true, rest)
    | '+' :: rest => (false, rest)
    | rest => (false, rest)
  if digits.isEmpty || digits.any (!·.isDigit) then none
  else some (if negative then -(ofDigits digits : Int) else ofDigits digits)

def readUnsigned? (negative : Bool) (text : List Char) : Option Number :=
  match String.ofList (text.map Char.toLower) with
  | "inf" | "infinity" => some (.infinite negative)
  | "nan" => some .nan
  | _ =>
    let whole := text.takeWhile Char.isDigit
    let rest := text.dropWhile Char.isDigit
    let (fraction, rest) : List Char × List Char := match rest with
      | '.' :: tail => (tail.takeWhile Char.isDigit, tail.dropWhile Char.isDigit)
      | _ => ([], rest)
    if whole.isEmpty && fraction.isEmpty then none
    else
      let exponent? : Option Int := match rest with
        | [] => some 0
        | c :: tail => if c == 'e' || c == 'E' then readExponent? tail else none
      exponent?.map fun exponent =>
        ofDecimal negative (ofDigits (whole ++ fraction)) (exponent - fraction.length)

def read? (text : String) : Option Number :=
  match text.toList with
  | '-' :: rest => readUnsigned? true rest
  | '+' :: rest => readUnsigned? false rest
  | rest => readUnsigned? false rest

end HclEval.Number
