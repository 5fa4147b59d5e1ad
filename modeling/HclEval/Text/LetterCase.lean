import HclEval.Text.CaseTable

/-!
Upper and lower case of texts in any script. A letter may expand to several characters, and a
capital sigma becomes the final form at the end of a word.
-/
namespace HclEval.Text.LetterCase

open CaseTable

def Shift.covers (s : Shift) (n : Nat) : Bool :=
  s.first ≤ n && n ≤ s.last && (n - s.first) % s.stride == 0

def convert (shifts : List Shift) (expansions : List (Nat × List Nat)) (c : Char) : List Char :=
  match expansions.lookup c.toNat with
  | some codes => codes.map Char.ofNat
  | none =>
    match shifts.find? (Shift.covers · c.toNat) with
    | some s => [Char.ofNat (c.toNat + s.distance).toNat]
    | none => [c]

def upperChar (c : Char) : List Char :=
  if c.toNat < 128 then [c.toUpper] else convert upperShifts upperExpansions c

def lowerChar (c : Char) : List Char :=
  if c.toNat < 128 then [c.toLower] else convert lowerShifts lowerExpansions c

def inRanges (ranges : List (Nat × Nat)) (c : Char) : Bool :=
  ranges.any fun (first, last) => first ≤ c.toNat && c.toNat ≤ last

def meetsCased (text : List Char) : Bool :=
  match text.dropWhile (inRanges ignorable) with
  | c :: _ => inRanges cased c
  | [] => false

def upper (text : List Char) : List Char := text.flatMap upperChar

def lowerAfter (before : List Char) : List Char → List Char
  | [] => []
  | c :: rest =>
    let converted :=
      if c = 'Σ' then [if meetsCased before && !meetsCased rest then 'ς' else 'σ']
      else lowerChar c
    converted ++ lowerAfter (c :: before) rest

def lower (text : List Char) : List Char := lowerAfter [] text

end HclEval.Text.LetterCase
