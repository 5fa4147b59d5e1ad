import HclEval.Source.Template

/-!
Reading expressions. A term is an operand with what is applied to it directly; after a term there
is nothing, an operator with all that follows as its right operand, or the branches of a
conditional. Inside of brackets newlines are free around an expression; inside of it they are
free in parentheses, and from an operand in parentheses on.
-/
namespace HclEval.Source

/-- Binary operators; of two that start alike the longer one comes first. -/
def binaryOperators : List (List Char × Operator) := [
  (['=', '='], .equal), (['!', '='], .notEqual), (['<', '='], .lessEqual),
  (['>', '='], .greaterEqual), (['&', '&'], .and), (['|', '|'], .or),
  (['<'], .less), (['>'], .greater), (['+'], .plus), (['-'], .minus), (['*'], .multiply),
  (['/'], .divide), (['%'], .modulo)]

/-- Reads a binary operator. Two slashes are a comment. -/
def binaryOperator : Reader Operator := fun text =>
  if (after? ['/', '/'] text).isSome then none
  else binaryOperators.findSome? fun (symbol, operator) =>
    (after? symbol text).map (operator, ·)

def itemsWithin (self : ExprReader) (close : Char) :
    (fuel : Nat) → Reader (List Expr)
  | 0, _ => none
  | fuel + 1, text => do
    let text := skip true text
    match expect close text with
    | some rest => return ([], rest)
    | none =>
      let (item, rest) ← self false text
      let rest := skip true rest
      match expect ',' rest with
      | some rest =>
        let (items, rest) ← itemsWithin self close fuel rest
        return (item :: items, rest)
      | none => return ([item], ← expect close rest)

def argumentsWithin (self : ExprReader) : (fuel : Nat) → Reader (List Expr × Bool)
  | 0, _ => none
  | fuel + 1, text => do
    let text := skip true text
    match expect ')' text with
    | some rest => return (([], false), rest)
    | none =>
      let (item, rest) ← self false text
      let rest := skip true rest
      match expect ',' rest, after? ['.', '.', '.'] rest with
      | some rest, _ =>
        let ((items, spread), rest) ← argumentsWithin self fuel rest
        return ((item :: items, spread), rest)
      | none, some rest => return (([item], true), ← expect ')' (skip true rest))
      | none, none => return (([item], false), ← expect ')' rest)

def afterFor? (text : List Char) : Option (List Char) :=
  match after? ['f', 'o', 'r'] text with
  | some (c :: rest) =>
    if c == ' ' || c == '\t' || c == '#' || c == '/' then some (c :: rest) else none
  | _ => none

/-- Reads a comprehension after its `for`, up to the closing bracket. With a brace the value has a
key, and values of equal keys may be grouped; the dots that say so stand right before the closing
brace or a condition. -/
def comprehension (self : ExprReader) (close : Char) : Reader Expr := fun text => do
  let ((keyVariable, valueVariable), rest) ← loopVariables true text
  let (collection, rest) ← self false (skip true rest)
  let rest ← expect ':' (skip true rest)
  let (first, rest) ← self false (skip true rest)
  let rest := skip true rest
  let (key, value, grouping, rest) ←
    if close = '}' then do
      let (value, rest) ← self false (skip true (← after? ['=', '>'] rest))
      let rest := skip true rest
      match after? ['.', '.', '.'] rest with
      | some rest => some (some first, value, true, rest)
      | none => some (some first, value, false, rest)
    else some (none, first, false, rest)
  let (condition, rest) ← match after? ['i', 'f'] (skip true rest) with
    | some rest =>
      (self false (skip true rest)).map fun (condition, rest) => (some condition, skip true rest)
    | none => some (none, rest)
  return (.comprehension keyVariable valueVariable collection key value condition grouping,
    ← expect close rest)

def Entry.ofKey (key value : Expr) : Entry :=
  match key with
  | .variable name => .word name value
  | key => .keyed key value

/-- Reads the entries of an object up to the closing brace. An entry ends with a comma or with its
line. -/
def entriesWithin (self : ExprReader) : (fuel : Nat) → List Entry → Reader (List Entry)
  | 0, _, _ => none
  | fuel + 1, entries, text => do
    let text := skip true text
    match expect '}' text with
    | some rest => return (entries, rest)
    | none =>
      let (key, rest) ← self false text
      let rest := skip false rest
      let rest ← (expect '=' rest).or (expect ':' rest)
      let (value, rest) ← self false (skip false rest)
      let entries := addEntry (.ofKey key value) entries
      let rest := skip false rest
      match expect '}' rest, (expect ',' rest).or (nextLine? rest) with
      | some rest, _ => return (entries, rest)
      | none, some rest => entriesWithin self fuel entries rest
      | none, none => none

def bracketed (self : ExprReader) : Reader Expr
  | '[' :: rest => do
    match afterFor? (skip true rest) with
    | some rest => comprehension self ']' rest
    | none =>
      let (items, rest) ← itemsWithin self ']' (rest.length + 1) rest
      return (.array items, rest)
  | '{' :: rest => do
    match afterFor? (skip true rest) with
    | some rest => comprehension self '}' rest
    | none =>
      let (entries, rest) ← entriesWithin self (rest.length + 1) [] rest
      return (.object entries, rest)
  | _ => none

/-- Reads a word: a call, a constant or a variable. Before the parenthesis of a call newlines are
free. -/
def named (self : ExprReader) : Reader Expr := fun text => do
  let (name, rest) ← identifier text
  match expect '(' (skip true rest) with
  | some rest =>
    let ((arguments, spread), rest) ← argumentsWithin self (rest.length + 1) rest
    return (.call name arguments spread, rest)
  | none =>
    match name with
    | "null" => return (.null, rest)
    | "true" => return (.bool true, rest)
    | "false" => return (.bool false, rest)
    | _ => return (.variable name, rest)

def operand (self : ExprReader) : Reader Expr
  | [] => none
  | c :: rest =>
    match c with
    | '"' => quoted self (c :: rest)
    | '[' | '{' => bracketed self (c :: rest)
    | '<' => heredoc self (c :: rest)
    | '(' => do
      let (inner, rest) ← self true (skip true rest)
      return (.parens inner, ← expect ')' (skip true rest))
    | _ =>
      if c.isDigit then (numeral (c :: rest)).map fun (n, rest) => (.number n, rest)
      else named self (c :: rest)

def Expr.withUnary (expr : Expr) : Option Operator → Expr
  | some symbol => .unary symbol expr
  | none => expr

/-- Reads an operand with the unary operators before it. The last of them counts, and a minus is
part of a numeral that follows it on the same line. -/
def signedWithin (self : ExprReader) (free : Bool) :
    (fuel : Nat) → Option Operator → Reader Expr
  | 0, _, _ => none
  | fuel + 1, pending, text => do
    match text with
    | '-' :: rest =>
      let ahead := skip false rest
      if (ahead.head?.map Char.isDigit).getD false then
        let (n, rest) ← numeral ahead
        return ((Expr.number n.negate).withUnary pending, rest)
      else signedWithin self free fuel (some .minus) (skip free rest)
    | '!' :: rest => signedWithin self free fuel (some .not) (skip free rest)
    | _ =>
      let (expr, rest) ← operand self text
      return (expr.withUnary pending, rest)

/-- Reads an accessor after its point. A position has no leading zeros. -/
def pointAccess : Reader Access := fun text =>
  match text with
  | '*' :: rest => some (.splat, rest)
  | '0' :: rest => some (.position 0, rest)
  | _ =>
    let digits := text.takeWhile Char.isDigit
    if digits.isEmpty then (identifier text).map fun (name, rest) => (.name name, rest)
    else
      let n := Number.ofDigits digits
      if n < Number.wordCount then some (.position n, text.dropWhile Char.isDigit) else none

def bracketAccess (self : ExprReader) : Reader Access := fun text => do
  let text := skip true text
  match expect '*' text with
  | some rest => return (.splat, ← expect ']' (skip true rest))
  | none =>
    let (index, rest) ← self false text
    return (.index index, ← expect ']' (skip true rest))

def accessesWithin (self : ExprReader) (free : Bool) : (fuel : Nat) → Reader (List Access)
  | 0, _ => none
  | fuel + 1, text =>
    match skip free text with
    | '.' :: rest => do
      let (access, rest) ← pointAccess (skip true rest)
      let (more, rest) ← accessesWithin self free fuel rest
      return (access :: more, rest)
    | '[' :: rest => do
      let (access, rest) ← bracketAccess self rest
      let (more, rest) ← accessesWithin self free fuel rest
      return (access :: more, rest)
    | _ => some ([], text)

/-- Reads the accessors after an operand. Two points in a row are none there, but after an accessor
there has to be one after every point. -/
def accesses (self : ExprReader) (free : Bool) : Reader (List Access) := fun text =>
  match skip free text with
  | '.' :: '.' :: _ => some ([], text)
  | _ => accessesWithin self free (text.length + 1) text

def Expr.isInParens : Expr → Bool
  | .parens _ => true
  | .unary _ operand => operand.isInParens
  | _ => false

def exprStep (self : ExprReader) : ExprReader := fun free text => do
  let (operand, rest) ← signedWithin self free (text.length + 1) none text
  let free := free || operand.isInParens
  let (accesses, rest) ← accesses self free rest
  let first := if accesses.isEmpty then operand else .traversal operand accesses
  let ahead := skip free rest
  match binaryOperator ahead, expect '?' ahead with
  | some (symbol, rest), _ =>
    let (right, rest) ← self free (skip free rest)
    return (.binary first symbol right, rest)
  | none, some rest =>
    let (yes, rest) ← self free (skip free rest)
    let rest ← expect ':' (skip free rest)
    let (no, rest) ← self free (skip free rest)
    return (.conditional first yes no, rest)
  | none, none => return (first, rest)

/-- Reads an expression of a nesting below the bound; every level takes a character. -/
def exprWithin : (depth : Nat) → ExprReader
  | 0 => fun _ _ => none
  | depth + 1 => exprStep (exprWithin depth)

/-- Reads an expression; `free` says whether newlines count as blanks. -/
def expr : ExprReader := fun free text => exprWithin (text.length + 1) free text

end HclEval.Source
