import HclEval.Builtin.Arguments
import HclEval.Number.Arithmetic
import HclEval.Number.Reader
import HclEval.Text.Blank

/-!
Built-in functions on numbers.
-/
namespace HclEval.Builtin

def combineNumbers (f : Number → Number → Number) (arguments : List Value) : Option Value :=
  match arguments.filterMap Value.number? with
  | [] => none
  | x :: rest => some (.number (rest.foldl f x))

def toNumber (arguments : List Value) : Option Value :=
  match arguments.head? with
  | some (.number x) => some (.number x)
  | some (.string text) =>
    (Number.read? (String.ofList (Text.trim text.toList))).map .number
  | _ => none

def onNumber (f : Number → Number) : Function :=
  total fun arguments => (numberAt? arguments 0).map (.number ∘ f)

def numericFunctions : Table Function := [
  ("max", total (combineNumbers Number.max)),
  ("min", total (combineNumbers Number.min)),
  ("tonumber", total toNumber),
  ("abs", onNumber Number.abs),
  ("ceil", onNumber Number.ceil),
  ("floor", onNumber Number.floor)]

end HclEval.Builtin
