import HclEval.Pattern.Program
import HclEval.Text.Blank

/-!
Reading regular expressions. Every reader takes the rest of the text and answers what it read and
what is left, or `none` for a text that is no expression. The first number of a recursive reader
bounds its steps; each step takes at least one character.
-/
namespace HclEval.Pattern

structure Flags where
  ignoreCase : Bool
  multiLine : Bool
  dotAll : Bool
  swapGreed : Bool
  unicode : Bool
  crlf : Bool
  extended : Bool

def Flags.initial : Flags := ⟨false, false, false, false, true, false, false⟩

def Flags.assign? (flags : Flags) (letter : Char) (on : Bool) : Option Flags :=
  match letter with
  | 'i' => some { flags with ignoreCase := on }
  | 'm' => some { flags with multiLine := on }
  | 's' => some { flags with dotAll := on }
  | 'U' => some { flags with swapGreed := on }
  | 'u' => some { flags with unicode := on }
  | 'R' => some { flags with crlf := on }
  | 'x' => some { flags with extended := on }
  | _ => none

/-- Skips blanks and comments where the flags say so. `inComment` holds within a comment. -/
def skipExtended (inComment : Bool) : List Char → List Char
  | [] => []
  | c :: rest =>
    if inComment then skipExtended (c != '\n') rest
    else if c == '#' then skipExtended true rest
    else if Text.isBlank c then skipExtended false rest
    else c :: rest

def Flags.skip (flags : Flags) (text : List Char) : List Char :=
  if flags.extended then skipExtended false text else text

def Flags.cased (flags : Flags) (s : CharSet) : CharSet :=
  if !flags.ignoreCase then s else if flags.unicode then .folded s else s.asciiFolded

/-- Without Unicode a set holds ASCII characters only. -/
def Flags.checked? (flags : Flags) (s : CharSet) : Option CharSet :=
  if flags.unicode || !s.exceedsAscii then some s else none

def Flags.classSet (flags : Flags) (name : Char) : CharSet :=
  match name with
  | 'd' => if flags.unicode then digits else .ranges [(48, 57)]
  | 's' => if flags.unicode then blanks else .ranges [(9, 13), (32, 32)]
  | _ => if flags.unicode then wordCharacters else asciiWord

inductive Escape where
  | literal (c : Char)
  | set (s : CharSet)
  | look (look : Look)

def hexValue? (c : Char) : Option Nat :=
  let n := c.toNat
  if 48 ≤ n && n ≤ 57 then some (n - 48)
  else if 97 ≤ n && n ≤ 102 then some (n - 87)
  else if 65 ≤ n && n ≤ 70 then some (n - 55)
  else none

def hexCode? (digits : List Char) : Option Char := do
  if digits.isEmpty then none
  let code ← digits.foldlM (fun n c => (hexValue? c).map (16 * n + ·)) 0
  if code.isValidChar then some (Char.ofNat code) else none

def readCode? (width : Nat) : List Char → Option (Char × List Char)
  | '{' :: rest =>
    let digits := rest.takeWhile (· != '}')
    match rest.drop digits.length with
    | _ :: rest => (hexCode? digits).map (·, rest)
    | [] => none
  | text =>
    if text.length < width then none else (hexCode? (text.take width)).map (·, text.drop width)

def readProperty? : List Char → Option (CharSet × List Char)
  | '{' :: rest =>
    let name := rest.takeWhile (· != '}')
    match rest.drop name.length with
    | _ :: rest => (property? name).map (·, rest)
    | [] => none
  | c :: rest => (property? [c]).map (·, rest)
  | [] => none

/-- A boundary with a name in braces, or the plain boundary before other text. -/
def readBoundary (rest : List Char) : Look × List Char :=
  let named : List (List Char × Look) :=
    [("\x7bstart\x7d".toList, .wordStart), ("\x7bend\x7d".toList, .wordEnd),
     ("\x7bstart-half\x7d".toList, .wordStartHalf), ("\x7bend-half\x7d".toList, .wordEndHalf)]
  match named.find? fun (name, _) => name.isPrefixOf rest with
  | some (name, look) => (look, rest.drop name.length)
  | none => (.wordBoundary, rest)

/-- Characters that may follow a backslash to stand for themselves: ASCII without letters and
digits. -/
def isEscapable (c : Char) : Bool :=
  c.toNat < 128 && !c.isAlphanum && c != '<' && c != '>'

def readEscape? (flags : Flags) : List Char → Option (Escape × List Char)
  | [] => none
  | c :: rest =>
    match c with
    | 'x' => do
      let (code, after) ← readCode? 2 rest
      if !flags.unicode && rest.head? ≠ some '\x7b' && 128 ≤ code.toNat then none
      return (.literal code, after)
    | 'u' => (readCode? 4 rest).map fun (c, rest) => (.literal c, rest)
    | 'U' => (readCode? 8 rest).map fun (c, rest) => (.literal c, rest)
    | 'p' | 'P' => do
      let (s, rest) ← readProperty? rest
      if !flags.unicode then none
      let s := flags.cased s
      return (.set (if c = 'P' then .complement s else s), rest)
    | 'd' | 's' | 'w' => some (.set (flags.classSet c), rest)
    | 'D' | 'S' | 'W' => some (.set (.complement (flags.classSet c.toLower)), rest)
    | 'a' => some (.literal '\x07', rest)
    | 'f' => some (.literal '\x0c', rest)
    | 't' => some (.literal '\t', rest)
    | 'n' => some (.literal '\n', rest)
    | 'r' => some (.literal '\r', rest)
    | 'v' => some (.literal '\x0b', rest)
    | 'A' => some (.look .textStart, rest)
    | 'z' => some (.look .textEnd, rest)
    | 'b' => let (look, rest) := readBoundary rest; some (.look look, rest)
    | 'B' => some (.look .noWordBoundary, rest)
    | '<' => some (.look .wordStart, rest)
    | '>' => some (.look .wordEnd, rest)
    | _ => if isEscapable c then some (.literal c, rest) else none

def readAsciiClass? : List Char → Option (CharSet × List Char)
  | ':' :: rest =>
    let (negated, rest) : Bool × List Char := match rest with
      | '^' :: tail => (true, tail)
      | tail => (false, tail)
    let name := rest.takeWhile (· != ':')
    match rest.drop name.length with
    | ':' :: ']' :: rest => do
      let s ← asciiClass? (String.ofList name)
      return (if negated then .complement s else s, rest)
    | _ => none
  | _ => none

def readMember? (flags : Flags) : List Char → Option ((Char ⊕ CharSet) × List Char)
  | [] => none
  | '\\' :: rest => do
    match ← readEscape? flags rest with
    | (.literal c, rest) => inClass c rest
    | (.set s, rest) => return (.inr s, rest)
    | (.look _, _) => none
  | c :: rest => inClass c rest
where
  inClass (c : Char) (rest : List Char) : Option ((Char ⊕ CharSet) × List Char) :=
    if flags.unicode || c.toNat < 128 then some (.inl c, rest) else none

def memberSet (flags : Flags) : Char ⊕ CharSet → CharSet
  | .inl c => flags.cased (.single c)
  | .inr s => s

/-- Reads a member or a range. A hyphen before a bracket or another hyphen makes no range. -/
def readRange? (flags : Flags) (text : List Char) : Option (CharSet × List Char) := do
  let (first, rest) ← readMember? flags text
  let rest := flags.skip rest
  match rest with
  | '-' :: tail =>
    match flags.skip tail with
    | [] => none
    | ']' :: _ | '-' :: _ => return (memberSet flags first, rest)
    | tail =>
      let (last, rest) ← readMember? flags tail
      match first, last with
      | .inl a, .inl b =>
        if a.toNat ≤ b.toNat then return (flags.cased (.ranges [(a.toNat, b.toNat)]), rest)
        else none
      | _, _ => none
  | _ => return (memberSet flags first, rest)

inductive SetOperator where
  | intersection | difference | symmetricDifference

def SetOperator.combine : SetOperator → CharSet → CharSet → CharSet
  | intersection, s, t => .inter s t
  | difference, s, t => s.difference t
  | symmetricDifference, s, t => s.symmetricDifference t

/-- The set read so far: what stands before the last operator, combined with what follows it. -/
def combineWith (left : Option (SetOperator × CharSet)) (s : CharSet) : CharSet :=
  match left with
  | some (operator, t) => operator.combine t s
  | none => s

/-- Reads the opening of a class: negation, hyphens and a bracket that stand for themselves. -/
def openClass (flags : Flags) (text : List Char) : Bool × CharSet × List Char :=
  let text := flags.skip text
  let (negated, text) : Bool × List Char := match text with
    | '^' :: rest => (true, flags.skip rest)
    | rest => (false, rest)
  let hyphens := text.takeWhile (· == '-')
  let text := flags.skip (text.drop hyphens.length)
  match hyphens, text with
  | [], ']' :: rest => (negated, .single ']', rest)
  | [], text => (negated, .empty, text)
  | _ :: _, text => (negated, .single '-', text)

def readClass? (flags : Flags) : Nat → (negated : Bool) → Option (SetOperator × CharSet) →
    CharSet → List Char → Option (CharSet × List Char)
  | 0, _, _, _, _ => none
  | n + 1, negated, left, union, text =>
    let operate (operator : SetOperator) (rest : List Char) : Option (CharSet × List Char) :=
      readClass? flags n negated (some (operator, combineWith left union)) .empty rest
    match flags.skip text with
    | [] => none
    | ']' :: rest =>
      let s := combineWith left union
      some (if negated then .complement s else s, rest)
    | '[' :: rest =>
      match readAsciiClass? rest with
      | some (s, rest) => readClass? flags n negated left (.union union (flags.cased s)) rest
      | none =>
        let (innerNegated, start, rest) := openClass flags rest
        match readClass? flags n innerNegated none start rest with
        | some (s, rest) => readClass? flags n negated left (.union union s) rest
        | none => none
    | '&' :: '&' :: rest => operate .intersection rest
    | '-' :: '-' :: rest => operate .difference rest
    | '~' :: '~' :: rest => operate .symmetricDifference rest
    | text =>
      match readRange? flags text with
      | some (s, rest) => readClass? flags n negated left (.union union s) rest
      | none => none

def readDecimal? (text : List Char) : Option Nat × List Char :=
  let text := text.dropWhile Text.isBlank
  let digits := text.takeWhile Char.isDigit
  let rest := (text.drop digits.length).dropWhile Text.isBlank
  let n := digits.foldl (fun n c => 10 * n + (c.toNat - 48)) 0
  (if digits.isEmpty || 0x100000000 ≤ n then none else some n, rest)

def readBounds? (text : List Char) : Option (Nat × Option Nat × List Char) := do
  let (least, rest) := readDecimal? text
  let least ← least
  match rest with
  | '}' :: rest => return (least, some least, rest)
  | ',' :: rest =>
    match rest.dropWhile Text.isBlank with
    | '}' :: rest => return (least, none, rest)
    | rest =>
      let (most, rest) := readDecimal? rest
      let most ← most
      match rest with
      | '}' :: rest => if least ≤ most then return (least, some most, rest) else none
      | _ => none
  | _ => none

/-- Reads flags up to a colon or a closing parenthesis, which stays. -/
def readFlags? : Flags → (on : Bool) → (seen : List Char) → List Char → Option (Flags × List Char)
  | _, _, _, [] => none
  | flags, on, seen, c :: rest =>
    if c == ':' || c == ')' then
      if seen.head? = some '-' then none else some (flags, c :: rest)
    else if seen.contains c then none
    else if c == '-' then readFlags? flags false (c :: seen) rest
    else match flags.assign? c on with
      | some flags => readFlags? flags on (c :: seen) rest
      | none => none

def isNameStart (c : Char) : Bool := c.isAlpha || c == '_'

def isNamePart (c : Char) : Bool :=
  c.isAlphanum || c == '_' || c == '.' || c == '[' || c == ']'

def readName? (text : List Char) : Option (List Char × List Char) :=
  let name := text.takeWhile (· != '>')
  match text.drop name.length with
  | _ :: rest =>
    if name.head?.any isNameStart && name.all isNamePart then some (name, rest) else none
  | [] => none

inductive Opening where
  | group (flags : Flags)
  | named (name : List Char)
  /-- Flags for the rest of the enclosing group. -/
  | flags (flags : Flags)

/-- Reads what follows an opening parenthesis. There is no looking around. -/
def readOpening? (flags : Flags) : List Char → Option (Opening × List Char)
  | '?' :: 'P' :: '<' :: rest => (readName? rest).map fun (name, rest) => (.named name, rest)
  | '?' :: '=' :: _ | '?' :: '!' :: _ | '?' :: '<' :: '=' :: _ | '?' :: '<' :: '!' :: _ => none
  | '?' :: '<' :: rest => (readName? rest).map fun (name, rest) => (.named name, rest)
  | '?' :: rest => do
    match ← readFlags? flags true [] rest with
    | (inner, ':' :: tail) => return (.group inner, tail)
    | (inner, _ :: tail) => if rest.head? = some ')' then none else return (.flags inner, tail)
    | (_, []) => none
  | rest => some (.group flags, rest)

/-- Expressions in sequence, given the last first; `none` stands for flags. -/
def sequence (items : List (Option Regex)) : Regex :=
  items.foldl (fun r item => match item with
    | some s => match r with
      | .empty => s
      | r => .concat s r
    | none => r) .empty

def alternatives : List Regex → Regex
  | [] => .empty
  | r :: rest => rest.foldl (fun r s => .alt s r) r

/-- Repeats the last expression; `none` where there is none to repeat. A question mark after the
operator makes it lazy. -/
def repeatLast? (flags : Flags) (least : Nat) (most : Option Nat) (items : List (Option Regex))
    (rest : List Char) : Option (List (Option Regex) × List Char) :=
  match items with
  | some r :: items =>
    let (lazily, rest) : Bool × List Char := match rest with
      | '?' :: tail => (true, tail)
      | tail => (false, tail)
    some (some (.loop least most (lazily == flags.swapGreed) r) :: items, rest)
  | _ => none

def Flags.dot (flags : Flags) : CharSet :=
  if flags.dotAll then .all
  else if flags.crlf then .complement (.ranges [(10, 10), (13, 13)])
  else .complement (.ranges [(10, 10)])

def Flags.caret (flags : Flags) : Look := if flags.multiLine then .lineStart else .textStart

def Flags.dollar (flags : Flags) : Look := if flags.multiLine then .lineEnd else .textEnd

/-- Reads alternatives up to the end of the group. `done` holds the alternatives before this one
and `items` what stands before the text in it, both with the last first; `names` are those of
the groups so far. -/
def readAlternatives? : Nat → Flags → (inGroup : Bool) → (done : List Regex) →
    (items : List (Option Regex)) → (names : List (List Char)) → List Char →
    Option (Regex × List (List Char) × List Char)
  | 0, _, _, _, _, _, _ => none
  | n + 1, flags, inGroup, done, items, names, text =>
    let go (item : Regex) (rest : List Char) : Option (Regex × List (List Char) × List Char) :=
      readAlternatives? n flags inGroup done (some item :: items) names rest
    let goIfChecked (s : CharSet) (rest : List Char) :
        Option (Regex × List (List Char) × List Char) :=
      match flags.checked? s with
      | some s => go (.set s) rest
      | none => none
    let again (repeated : Option (List (Option Regex) × List Char)) :
        Option (Regex × List (List Char) × List Char) :=
      match repeated with
      | some (items, rest) => readAlternatives? n flags inGroup done items names rest
      | none => none
    match flags.skip text with
    | [] => if inGroup then none else some (alternatives (sequence items :: done), names, [])
    | ')' :: rest =>
      if inGroup then some (alternatives (sequence items :: done), names, rest) else none
    | '|' :: rest =>
      readAlternatives? n flags inGroup (sequence items :: done) [] names rest
    | '(' :: rest =>
      match readOpening? flags (flags.skip rest) with
      | none => none
      | some (.flags flags, rest) =>
        readAlternatives? n flags inGroup done (none :: items) names rest
      | some (.group inner, rest) =>
        match readAlternatives? n inner true [] [] names rest with
        | some (r, names, rest) =>
          readAlternatives? n flags inGroup done (some r :: items) names rest
        | none => none
      | some (.named name, rest) =>
        if names.contains name then none
        else match readAlternatives? n flags true [] [] (name :: names) rest with
          | some (r, names, rest) =>
            readAlternatives? n flags inGroup done (some r :: items) names rest
          | none => none
    | '[' :: rest =>
      let (negated, start, rest) := openClass flags rest
      match readClass? flags (rest.length + 1) negated none start rest with
      | some (s, rest) => goIfChecked s rest
      | none => none
    | '*' :: rest => again (repeatLast? flags 0 none items rest)
    | '+' :: rest => again (repeatLast? flags 1 none items rest)
    | '?' :: rest => again (repeatLast? flags 0 (some 1) items rest)
    | '{' :: rest =>
      match readBounds? rest with
      | some (least, most, rest) => again (repeatLast? flags least most items rest)
      | none => none
    | '.' :: rest => goIfChecked flags.dot rest
    | '^' :: rest => go (.look flags.caret) rest
    | '$' :: rest => go (.look flags.dollar) rest
    | '\\' :: rest =>
      match readEscape? flags rest with
      | some (.literal c, rest) => go (.set (flags.cased (.single c))) rest
      | some (.set s, rest) => goIfChecked s rest
      | some (.look look, rest) => go (.look look) rest
      | none => none
    | c :: rest => go (.set (flags.cased (.single c))) rest

def Regex.read? (text : List Char) : Option Regex := do
  let (r, _, _) ← readAlternatives? (text.length + 1) .initial false [] [] [] text
  if r.weight ≤ Regex.weightLimit then some r else none

def findAll? (pattern text : String) : Option (List String) := do
  let r ← Regex.read? pattern.toList
  return (r.matches text.toList).map String.ofList

end HclEval.Pattern
