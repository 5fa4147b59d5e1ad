import HclEval.Pattern.Property

/-!
Regular expressions.
-/
namespace HclEval.Pattern

inductive Look where
  | textStart | textEnd | lineStart | lineEnd
  | wordBoundary | noWordBoundary | wordStart | wordEnd | wordStartHalf | wordEndHalf
  deriving DecidableEq, Repr

def inWord : Option Char → Bool
  | some c => wordCharacters.contains c
  | none => false

def Look.holds (look : Look) (before after : Option Char) : Bool :=
  match look with
  | textStart => before.isNone
  | textEnd => after.isNone
  | lineStart => before.isNone || before == some '\n'
  | lineEnd => after.isNone || after == some '\n'
  | wordBoundary => inWord before != inWord after
  | noWordBoundary => inWord before == inWord after
  | wordStart => !inWord before && inWord after
  | wordEnd => inWord before && !inWord after
  | wordStartHalf => !inWord before
  | wordEndHalf => !inWord after

inductive Regex where
  | empty
  | set (s : CharSet)
  | look (look : Look)
  | concat (r s : Regex)
  /-- The first alternative is preferred. -/
  | alt (r s : Regex)
  | loop (least : Nat) (most : Option Nat) (greedy : Bool) (r : Regex)
  deriving Repr

namespace Regex

def nullable : Regex → Bool
  | empty | look _ => true
  | set _ => false
  | concat r s => r.nullable && s.nullable
  | alt r s => r.nullable || s.nullable
  | loop least _ _ r => least == 0 || r.nullable

/-- An estimate of the memory a program for the expression takes. -/
def weight : Regex → Nat
  | empty => 0
  | set s => 32 + 24 * s.weight
  | look _ => 32
  | concat r s => r.weight + s.weight
  | alt r s => r.weight + s.weight + 32
  | loop least most _ r => (r.weight + 32) * max 1 (most.getD (least + 1))

def weightLimit : Nat := 10485760

end Regex
end HclEval.Pattern
