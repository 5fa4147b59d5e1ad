import HclEval.Operator
import HclEval.Source.Numeral

/-!
Expressions as they are written. Of a binary operation the right operand is all that follows the
operator, so the tree leans to the right whatever the operators are. Templates are kept as text:
literal text as it stands, with interpolations and directives between.
-/
namespace HclEval.Source

mutual

inductive Expr where
  | null
  | bool (b : Bool)
  | number (n : Numeral)
  | string (text : String)
  | array (elements : List Expr)
  | object (entries : List Entry)
  | template (text : String)
  /-- A heredoc; with `indented` the smallest indentation of its lines does not count. -/
  | heredoc (indented : Bool) (delimiter text : String)
  | variable (name : String)
  | traversal (base : Expr) (accesses : List Access)
  | call (name : String) (arguments : List Expr) (spread : Bool)
  | parens (inner : Expr)
  | conditional (condition yes no : Expr)
  | unary (symbol : Operator) (operand : Expr)
  | binary (left : Expr) (symbol : Operator) (right : Expr)
  | comprehension (keyVariable : Option String) (valueVariable : String) (collection : Expr)
      (key : Option Expr) (value : Expr) (condition : Option Expr) (grouping : Bool)
  deriving Repr

inductive Entry where
  | word (name : String) (value : Expr)
  | keyed (key value : Expr)
  deriving Repr

inductive Access where
  | name (name : String)
  | index (index : Expr)
  | position (n : Nat)
  | splat
  deriving Repr

end

inductive Element where
  | literal (text : String)
  | interpolation (expr : Expr)
  | conditional (condition : Expr) (yes : List Element) (no : Option (List Element))
  | loop (keyVariable : Option String) (valueVariable : String) (collection : Expr)
      (body : List Element)
  deriving Repr

/-- What a body consists of. The offset is that of the first byte in the source. -/
inductive Structure where
  | setting (name : String) (value : Expr) (offset : Nat)
  | block (names : List String) (body : List Structure) (offset : Nat)
  deriving Repr

end HclEval.Source
