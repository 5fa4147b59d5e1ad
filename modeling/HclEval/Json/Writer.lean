import HclEval.Json.Quoted
import HclEval.Node.Display
import HclEval.Number.Layout
import HclEval.Value.Basic

/-!
JSON texts of values, compact and indented, and the string form of a value, which is its JSON
text for lists and maps.
-/
namespace HclEval

namespace Value

def scalarText : Value → String
  | null => "null"
  | bool b => if b then "true" else "false"
  | number x => x.text
  | string text => text
  | type marker => marker.text
  | node tree => "$\x7b" ++ tree.text ++ "\x7d"
  | list _ | map _ => ""

end Value

namespace Json

def quoteString (text : String) : String := String.ofList (quote text.toList)

/-- Integers below `2 ^ 63` without point or exponent; what JSON cannot express is `null`. -/
def writeNumber (x : Number) : String :=
  match x.shortInt? with
  | some n => Number.writeInt n
  | none => if x.isFinite then Number.document.write x else "null"

def writeScalar : Value → String
  | .null => "null"
  | .bool b => if b then "true" else "false"
  | .number x => writeNumber x
  | .string text => quoteString text
  | other => quoteString other.scalarText

mutual

def write : Value → String
  | .list items => "[" ++ ",".intercalate (writeItems items) ++ "]"
  | .map entries => "\x7b" ++ ",".intercalate (writeEntries entries) ++ "\x7d"
  | other => writeScalar other
termination_by structural value => value

def writeItems : List Value → List String
  | [] => []
  | value :: rest => write value :: writeItems rest

def writeEntries : List (String × Value) → List String
  | [] => []
  | (key, value) :: rest => (quoteString key ++ ":" ++ write value) :: writeEntries rest

end

def indent (depth : Nat) : String := String.ofList (List.replicate (2 * depth) ' ')

def indented (opening closing : String) (depth : Nat) (lines : List String) : String :=
  if lines.isEmpty then opening ++ closing
  else opening ++ "\n" ++ ",\n".intercalate (lines.map (indent (depth + 1) ++ ·)) ++ "\n" ++
    indent depth ++ closing

mutual

def writeIndented (depth : Nat) : Value → String
  | .list items => indented "[" "]" depth (writeIndentedItems (depth + 1) items)
  | .map entries => indented "\x7b" "\x7d" depth (writeIndentedEntries (depth + 1) entries)
  | other => writeScalar other
termination_by structural value => value

def writeIndentedItems (depth : Nat) : List Value → List String
  | [] => []
  | value :: rest => writeIndented depth value :: writeIndentedItems depth rest

def writeIndentedEntries (depth : Nat) : List (String × Value) → List String
  | [] => []
  | (key, value) :: rest =>
    (quoteString key ++ ": " ++ writeIndented depth value) :: writeIndentedEntries depth rest

end

end Json

namespace Value

def text (value : Value) : String :=
  match value with
  | list _ | map _ => Json.write value
  | _ => value.scalarText

end Value
end HclEval
