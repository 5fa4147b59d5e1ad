import HclEval.Operator
import HclEval.Position
import HclEval.TypeMarker

/-!
The tree that a document is evaluated from. Children are in source order, and an expression is
a flat list of operands and operators: `a + b * c` is `[a, +, b, *, c]`.
-/
namespace HclEval

inductive LiteralKind where
  | string | number | boolean | null
  deriving DecidableEq, Repr

inductive Node where
  | block (names : List String) (children : List Node) (position : Option Position)
  /-- An attribute. The children are a flat expression, empty for `null`, or a single block for
  an object. -/
  | named (name : String) (children : List Node) (position : Option Position)
  | keyed (name : Node) (children : List Node) (position : Option Position)
  | map (entries : List Node)
  | array (elements : List Node)
  | literal (kind : LiteralKind) (raw : String)
  | type (marker : TypeMarker)
  | operator (symbol : Operator)
  /-- Segments, and arrays of one element for index accessors. -/
  | reference (segments : List Node)
  | segment (name : String)
  /-- With `spread` the last argument is a list of further arguments. -/
  | call (name : String) (arguments : List Node) (spread : Bool)
  | group (children : List Node)
  | interpolation (children : List Node)
  /-- A `for` expression; with a key it makes an object, and `grouping` collects the values of
  equal keys. -/
  | comprehension (keyVariable : Option String) (valueVariable : String) (collection : Node)
      (key : Option Node) (value : Node) (condition : Option Node) (grouping : Bool)
  deriving Repr

namespace Node

def string (text : String) : Node := literal .string text

def number (raw : String) : Node := literal .number raw

def boolean (b : Bool) : Node := literal .boolean (if b then "true" else "false")

def null : Node := literal .null "null"

mutual

/-- Does the node, or anything below it, refer to something? Without that an expression has the
same value wherever it is evaluated. -/
def hasReferences : Node → Bool
  | reference _ | comprehension .. => true
  | block _ children _ | named _ children _ | map children | array children
  | group children | interpolation children | call _ children _ => anyReferences children
  | keyed name children _ => name.hasReferences || anyReferences children
  | literal .. | type _ | operator _ | segment _ => false
termination_by structural node => node

def anyReferences : List Node → Bool
  | [] => false
  | node :: rest => node.hasReferences || anyReferences rest

end

def isReference : Node → Bool
  | reference _ => true
  | _ => false

def isKeyed : Node → Bool
  | keyed .. => true
  | _ => false

mutual

def size : Node → Nat
  | block _ children _ | named _ children _ | map children | array children
  | reference children | group children | interpolation children | call _ children _ =>
    sizeAll children + 1
  | keyed name children _ => name.size + sizeAll children + 1
  | literal .. | type _ | operator _ | segment _ => 1
  | comprehension _ _ collection key value condition _ =>
    collection.size + sizeOption key + value.size + sizeOption condition + 1
termination_by structural node => node

def sizeAll : List Node → Nat
  | [] => 0
  | node :: rest => node.size + sizeAll rest

def sizeOption : Option Node → Nat
  | none => 0
  | some node => node.size

end

theorem anyReferences_eq (nodes : List Node) : anyReferences nodes = nodes.any hasReferences := by
  induction nodes with
  | nil => rfl
  | cons node rest ih => simp [anyReferences, ih]

end Node
end HclEval
