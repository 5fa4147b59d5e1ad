import HclEval.Text.CaseTable

/-!
Sets of characters, and membership in them. `folded` adds all characters that differ from a
member in letter case only.
-/
namespace HclEval.Pattern

inductive CharSet where
  | ranges (list : List (Nat × Nat))
  | complement (s : CharSet)
  | union (s t : CharSet)
  | inter (s t : CharSet)
  | folded (s : CharSet)
  deriving Repr

open Text.CaseTable

def shiftedBoth (shifts : List Shift) (n : Nat) : List Nat :=
  shifts.flatMap fun s =>
    let back := ((n : Int) - s.distance).toNat
    let covers (m : Nat) : Bool := s.first ≤ m && m ≤ s.last && (m - s.first) % s.stride == 0
    (if covers n then [((n : Int) + s.distance).toNat] else []) ++
      (if covers back && (n : Int) - s.distance == back then [back] else [])

/-- Code points one change of letter case away; the dotless i has no capital of its own. -/
def caseNeighbours (n : Nat) : List Nat :=
  let ascii := if 65 ≤ n && n ≤ 90 then [n + 32] else if 97 ≤ n && n ≤ 122 then [n - 32] else []
  (ascii ++ shiftedBoth upperShifts n ++ shiftedBoth lowerShifts n).filter (· != 0x131)

def caseVariants (n : Nat) : List Nat :=
  if n = 0x131 then []
  else
    let near := caseNeighbours n
    near ++ near.flatMap caseNeighbours

namespace CharSet

def containsCode : CharSet → Nat → Bool
  | ranges list, n => list.any fun (first, last) => first ≤ n && n ≤ last
  | complement s, n => !s.containsCode n
  | union s t, n => s.containsCode n || t.containsCode n
  | inter s t, n => s.containsCode n && t.containsCode n
  | folded s, n => s.containsCode n || (caseVariants n).any s.containsCode

def contains (s : CharSet) (c : Char) : Bool := s.containsCode c.toNat

def empty : CharSet := ranges []

def all : CharSet := ranges [(0, 0x10FFFF)]

def single (c : Char) : CharSet := ranges [(c.toNat, c.toNat)]

def difference (s t : CharSet) : CharSet := inter s (complement t)

def symmetricDifference (s t : CharSet) : CharSet := union (difference s t) (difference t s)

/-- Code points at which membership may begin or end. -/
def edges : CharSet → List Nat
  | ranges list => list.flatMap fun (first, last) => [first, last + 1]
  | complement s | folded s => s.edges
  | union s t | inter s t => s.edges ++ t.edges

def exceedsAscii (s : CharSet) : Bool :=
  (128 :: s.edges).any fun n => 128 ≤ n && n ≤ 0x10FFFF && s.containsCode n

/-- Adds the ASCII letters that differ from a member in case only. -/
def asciiFolded (s : CharSet) : CharSet :=
  let swapped (n : Nat) : Bool :=
    (65 ≤ n && n ≤ 90 && s.containsCode (n + 32)) || (97 ≤ n && n ≤ 122 && s.containsCode (n - 32))
  union s (ranges (((List.range 128).filter swapped).map fun n => (n, n)))

def weight : CharSet → Nat
  | ranges list => list.length
  | complement s | folded s => s.weight + 1
  | union s t | inter s t => s.weight + t.weight

end CharSet
end HclEval.Pattern
