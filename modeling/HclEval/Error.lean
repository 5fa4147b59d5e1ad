import HclEval.Position

/-!
What can go wrong with a document. Unknown functions, references that lead nowhere and operands
of the wrong type are no errors: they evaluate to `null`, to themselves or to the other operand.
-/
namespace HclEval

inductive Error where
  /-- The text is no HCL. -/
  | malformed
  /-- The text cannot be read, or is not UTF-8. -/
  | unreadable
  | unsupported (what : String) (position : Option Position)
  | blockTraversesArray (path : String) (position : Option Position)
  | blockTraversesValue (path : String) (position : Option Position)
  | invalidNumber (raw : String)
  | invalidAttributeName (name : String)
  | cyclicReference (path : String)
  | recursionLimit (limit : Nat)
  | functionFailed (name : String) (cause : String)
  deriving DecidableEq, Repr

namespace Error

def atPosition : Option Position → String
  | some position => " (at " ++ position.text ++ ")"
  | none => ""

def message : Error → String
  | malformed => "Unable to parse hcl source"
  | unreadable => "IO error"
  | unsupported what position => what ++ " is not supported" ++ atPosition position
  | blockTraversesArray path position =>
    "Block scope `" ++ path ++ "` traverses an object array" ++ atPosition position
  | blockTraversesValue path position =>
    "Block scope `" ++ path ++ "` traverses an object value" ++ atPosition position
  | invalidNumber raw => "Invalid numeric literal `" ++ raw ++ "`"
  | invalidAttributeName name =>
    "Attribute name `" ++ name ++ "` does not evaluate to a string"
  | cyclicReference path => "Cyclic reference `" ++ path ++ "`"
  | recursionLimit limit =>
    "Recursion limit of " ++ toString limit ++ " nested references exceeded"
  | functionFailed name _ => "Function `" ++ name ++ "` failed"

def cause? : Error → Option String
  | invalidNumber raw =>
    some (if raw.isEmpty then "cannot parse float from empty string" else "invalid float literal")
  | functionFailed _ cause => some cause
  | _ => none

end Error
end HclEval
