/-!
The operators of expressions.
-/
namespace HclEval

inductive Operator where
  | and | or | question | colon
  | equal | notEqual | greater | greaterEqual | less | lessEqual
  | plus | minus | multiply | divide | modulo
  | not
  deriving DecidableEq, Repr

namespace Operator

def symbol : Operator → String
  | and => "&&"
  | or => "||"
  | question => "?"
  | colon => ":"
  | equal => "=="
  | notEqual => "!="
  | greater => ">"
  | greaterEqual => ">="
  | less => "<"
  | lessEqual => "<="
  | plus => "+"
  | minus => "-"
  | multiply => "*"
  | divide => "/"
  | modulo => "%"
  | not => "!"

def all : List Operator :=
  [and, or, question, colon, equal, notEqual, greater, greaterEqual, less, lessEqual,
   plus, minus, multiply, divide, modulo, not]

def ofSymbol? (text : String) : Option Operator := all.find? (·.symbol == text)

def endsLogicalOperand : Operator → Bool
  | and | or | question | colon => true
  | _ => false

end Operator
end HclEval
