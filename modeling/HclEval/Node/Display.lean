import HclEval.Node.Basic
import HclEval.Text.Quoted

/-!
Trees written close to their source form. A reference in this form names the lookup it stands
for, and an unresolved one appears so in the output.
-/
namespace HclEval.Node

def quoted (text : String) : String := String.ofList (Text.Quoted.write text.toList)

mutual

def text : Node → String
  | block names _ _ => " ".intercalate names ++ " \x7b ... \x7d"
  | named name children _ => name ++ " = " ++ " ".intercalate (texts children)
  | keyed name children _ => "(" ++ name.text ++ ") = " ++ " ".intercalate (texts children)
  | map entries => "\x7b " ++ ", ".intercalate (texts entries) ++ " \x7d"
  | array elements => "[" ++ ", ".intercalate (texts elements) ++ "]"
  | literal .string raw => quoted raw
  | literal _ raw => raw
  | type marker => marker.text
  | operator symbol => symbol.symbol
  | reference segments => pathText segments
  | segment name => name
  | call name arguments spread =>
    name ++ "(" ++ ", ".intercalate (texts arguments) ++ (if spread then "...)" else ")")
  | group children => "(" ++ " ".intercalate (texts children) ++ ")"
  | interpolation children => "\"$\x7b" ++ " ".intercalate (texts children) ++ "\x7d\""
  | comprehension keyVariable valueVariable collection key value condition grouping =>
    (if key.isSome then "\x7bfor " else "[for ") ++
    (match keyVariable with | some name => name ++ ", " | none => "") ++
    valueVariable ++ " in " ++ collection.text ++ " : " ++
    (match key with | some key => key.text ++ " => " | none => "") ++
    value.text ++ (if grouping then "..." else "") ++
    (match condition with | some condition => " if " ++ condition.text | none => "") ++
    (if key.isSome then "\x7d" else "]")
termination_by structural node => node

def texts : List Node → List String
  | [] => []
  | node :: rest => node.text :: texts rest

def pathText : List Node → String
  | [] => ""
  | segment name :: rest => name ++ accessText rest
  | node :: rest => node.text ++ accessText rest

def accessText : List Node → String
  | [] => ""
  | segment name :: rest => "." ++ name ++ accessText rest
  | node :: rest => node.text ++ accessText rest

end

end HclEval.Node
