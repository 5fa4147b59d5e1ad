import HclEval.Pattern.Basic

/-!
Programs for regular expressions and their run. All ways to match advance together, one character
at a time, in the order in which they are preferred; a way that reaches an instruction which a
preferred one has reached at the same place is dropped.
-/
namespace HclEval.Pattern

inductive Instr where
  | consume (s : CharSet) (next : Nat)
  | check (look : Look) (next : Nat)
  | fork (first second : Nat)
  | done
  deriving Repr

abbrev Program := Array Instr

instance : Inhabited Instr := ⟨.done⟩

def times (f : Nat → Program → Nat × Program) : Nat → Nat → Program → Nat × Program
  | 0, next, code => (next, code)
  | n + 1, next, code =>
    let (next, code) := f next code
    times f n next code

def choice (greedy : Bool) (body next : Nat) : Instr :=
  if greedy then .fork body next else .fork next body

namespace Regex

/-- Appends the instructions of an expression that goes on at `next`. Answers where it starts. -/
def compile : Regex → Nat → Program → Nat × Program
  | empty, next, code => (next, code)
  | set s, next, code => (code.size, code.push (.consume s next))
  | look l, next, code => (code.size, code.push (.check l next))
  | concat r s, next, code =>
    let (middle, code) := s.compile next code
    r.compile middle code
  | alt r s, next, code =>
    let (first, code) := r.compile next code
    let (second, code) := s.compile next code
    (code.size, code.push (.fork first second))
  | loop least most greedy r, next, code =>
    match most with
    | some most =>
      let optional (after : Nat) (code : Program) : Nat × Program :=
        let (body, code) := r.compile after code
        (code.size, code.push (choice greedy body next))
      let (tail, code) := times optional (most - least) next code
      times r.compile least tail code
    | none =>
      let again := code.size
      let (body, code) := r.compile again (code.push .done)
      let code := code.setIfInBounds again (choice greedy body next)
      if least == 0 then
        if r.nullable then (code.size, code.push (choice greedy body next)) else (again, code)
      else times r.compile (least - 1) body code

end Regex

/-- Follows instructions that take no character, from a stack of places to go, each place once.
Every place not yet seen puts at most two more on the stack, which bounds the steps. -/
def closure (code : Program) (before after : Option Char) :
    (steps : Nat) → List Nat → Array Bool → List Nat → Array Bool × List Nat
  | 0, _, seen, found => (seen, found)
  | _ + 1, [], seen, found => (seen, found)
  | steps + 1, place :: stack, seen, found =>
    if seen.getD place true then closure code before after steps stack seen found
    else
      let seen := seen.setIfInBounds place true
      match code.getD place .done with
      | .check look next =>
        closure code before after steps (if look.holds before after then next :: stack else stack)
          seen found
      | .fork first second => closure code before after steps (first :: second :: stack) seen found
      | _ => closure code before after steps stack seen (place :: found)

def reach (code : Program) (before after : Option Char) (starts : List Nat) : List Nat :=
  (closure code before after (2 * code.size + starts.length + 1) starts
    (Array.replicate code.size false) []).2.reverse

/-- Where the ways go that take a character, up to the first that is done, and whether one is. -/
def advanceAll (code : Program) (c : Option Char) : List Nat → List Nat × Bool
  | [] => ([], false)
  | place :: rest =>
    match code.getD place .done with
    | .done => ([], true)
    | .consume s next =>
      let (places, done) := advanceAll code c rest
      (if c.any s.contains then next :: places else places, done)
    | _ => advanceAll code c rest

/-- The length of the preferred match at the start of a text; `length` characters were taken so
far and `best` is the match to fall back on. -/
def run (code : Program) (before : Option Char) (starts : List Nat) (length : Nat)
    (best : Option Nat) : List Char → Option Nat
  | [] =>
    let (_, done) := advanceAll code none (reach code before none starts)
    if done then some length else best
  | c :: rest =>
    let (places, done) := advanceAll code (some c) (reach code before (some c) starts)
    let best := if done then some length else best
    if places.isEmpty then best else run code (some c) places (length + 1) best rest

def search (code : Program) (start : Nat) (before : Option Char) (passed : Nat) :
    List Char → Option (Nat × Nat)
  | [] => (run code before [start] 0 none []).map (passed, ·)
  | c :: rest =>
    match run code before [start] 0 none (c :: rest) with
    | some length => some (passed, length)
    | none => search code start (some c) (passed + 1) rest

/-- All matches from left to right without overlap. An empty match right where the last one ended
does not count. The first number bounds the matches still to come. -/
def matchesFrom (code : Program) (start : Nat) :
    Nat → Option Char → (ended : Bool) → List Char → List (List Char)
  | 0, _, _, _ => []
  | n + 1, before, ended, text =>
    match search code start before 0 text with
    | none => []
    | some (skipped, length) =>
      if length == 0 && skipped == 0 && ended then
        match text with
        | [] => []
        | c :: rest => matchesFrom code start n (some c) false rest
      else
        let taken := text.take (skipped + length)
        taken.drop skipped ::
          matchesFrom code start n (taken.getLast?.or before) true (text.drop (skipped + length))

def Regex.matches (r : Regex) (text : List Char) : List (List Char) :=
  let (start, code) := r.compile 0 #[.done]
  matchesFrom code start (2 * text.length + 2) none false text

end HclEval.Pattern
