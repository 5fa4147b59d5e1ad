import HclEval.Json.Quoted
import HclEval.Source.Expr

/-!
Expressions and templates written as source text again. Layout is not kept, and neither is the
escaping of a template's literal text: only `${` and `%{` are told apart from the start of an
interpolation or directive, by doubling their first character.
-/
namespace HclEval.Source

/-- Doubles the first character of every `${` and `%{`. -/
def escapeMarkers : List Char → List Char
  | '$' :: '{' :: rest => '$' :: '$' :: '{' :: escapeMarkers rest
  | '%' :: '{' :: rest => '%' :: '%' :: '{' :: escapeMarkers rest
  | c :: rest => c :: escapeMarkers rest
  | [] => []

def quotedText (text : String) : String :=
  String.ofList (Json.quote (escapeMarkers text.toList))

mutual

def Expr.text : Expr → String
  | .null => "null"
  | .bool b => if b then "true" else "false"
  | .number n => n.text
  | .string text => quotedText text
  | .array elements => "[" ++ ", ".intercalate (exprTexts elements) ++ "]"
  | .object entries =>
    if entries.isEmpty then "\x7b\x7d"
    else "\x7b " ++ ", ".intercalate (entryTexts entries) ++ " \x7d"
  | .template text => "\"" ++ text ++ "\""
  | .heredoc indented delimiter text =>
    (if indented then "<<-" else "<<") ++ delimiter ++ "\n" ++ text ++ delimiter
  | .variable name => name
  | .traversal base accesses => base.text ++ String.join (accessTexts accesses)
  | .call name arguments spread =>
    name ++ "(" ++ ", ".intercalate (exprTexts arguments) ++ (if spread then "...)" else ")")
  | .parens inner => "(" ++ inner.text ++ ")"
  | .conditional condition yes no => condition.text ++ " ? " ++ yes.text ++ " : " ++ no.text
  | .unary symbol operand => symbol.symbol ++ operand.text
  | .binary left symbol right => left.text ++ " " ++ symbol.symbol ++ " " ++ right.text
  | .comprehension keyVariable valueVariable collection key value condition grouping =>
    (if key.isSome then "\x7bfor " else "[for ") ++
    (match keyVariable with | some name => name ++ ", " | none => "") ++
    valueVariable ++ " in " ++ collection.text ++ " : " ++
    (match key with | some key => key.text ++ " => " | none => "") ++
    value.text ++ (if grouping then "..." else "") ++
    (match condition with | some condition => " if " ++ condition.text | none => "") ++
    (if key.isSome then "\x7d" else "]")
termination_by structural expr => expr

def Entry.text : Entry → String
  | .word name value => name ++ " = " ++ value.text
  | .keyed key value => key.text ++ " = " ++ value.text

def Access.text : Access → String
  | .name name => "." ++ name
  | .index index => "[" ++ index.text ++ "]"
  | .position n => "." ++ toString n
  | .splat => "[*]"

def exprTexts : List Expr → List String
  | [] => []
  | expr :: rest => expr.text :: exprTexts rest

def entryTexts : List Entry → List String
  | [] => []
  | entry :: rest => entry.text :: entryTexts rest

def accessTexts : List Access → List String
  | [] => []
  | access :: rest => access.text :: accessTexts rest

end

mutual

def Element.text : Element → String
  | .literal text => String.ofList (escapeMarkers text.toList)
  | .interpolation expr => "$\x7b" ++ expr.text ++ "\x7d"
  | .conditional condition yes no =>
    "%\x7b if " ++ condition.text ++ " \x7d" ++ templateText yes ++
    (match no with | some no => "%\x7b else \x7d" ++ templateText no | none => "") ++
    "%\x7b endif \x7d"
  | .loop keyVariable valueVariable collection body =>
    "%\x7b for " ++ (match keyVariable with | some name => name ++ ", " | none => "") ++
    valueVariable ++ " in " ++ collection.text ++ " \x7d" ++ templateText body ++
    "%\x7b endfor \x7d"
termination_by structural element => element

def templateText : List Element → String
  | [] => ""
  | element :: rest => element.text ++ templateText rest

end

def Expr.isTemplate : Expr → Bool
  | .template _ => true
  | _ => false

def Entry.sameKey : Entry → Entry → Bool
  | .word a _, .word b _ => a == b
  | .keyed a _, .keyed b _ => a.isTemplate == b.isTemplate && a.text == b.text
  | _, _ => false

/-- Adds an entry. One with the same key gives way, but keeps its place. -/
def addEntry (entry : Entry) : List Entry → List Entry
  | [] => [entry]
  | old :: rest => if old.sameKey entry then entry :: rest else old :: addEntry entry rest

end HclEval.Source
