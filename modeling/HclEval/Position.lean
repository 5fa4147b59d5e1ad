/-!
Places in a source text. Lines and columns count from one, columns in characters and offsets
in bytes.
-/
namespace HclEval

structure Position where
  line : Nat
  column : Nat
  offset : Nat
  deriving DecidableEq, Repr

namespace Position

def byteLength : List Char → Nat
  | [] => 0
  | c :: rest => c.utf8Size + byteLength rest

/-- The characters that lie wholly before a byte offset. -/
def before : List Char → Nat → List Char
  | [], _ => []
  | c :: rest, offset => if c.utf8Size ≤ offset then c :: before rest (offset - c.utf8Size) else []

def lastLine (text : List Char) : List Char := (text.reverse.takeWhile (· ≠ '\n')).reverse

def after (text : List Char) : Position :=
  ⟨text.count '\n' + 1, (lastLine text).length + 1, byteLength text⟩

/-- The position of a byte offset, that of the end for an offset beyond it. -/
def ofOffset (source : String) (offset : Nat) : Position :=
  { after (before source.toList offset) with offset := min offset (byteLength source.toList) }

def text (p : Position) : String := s!"{p.line}:{p.column}"

theorem before_of_length_le {text : List Char} {offset : Nat} (h : byteLength text ≤ offset) :
    before text offset = text := by
  induction text generalizing offset with
  | nil => rfl
  | cons c rest ih =>
    rw [byteLength] at h
    rw [before, if_pos (by omega), ih (by omega)]

end Position
end HclEval
