import HclEval.Node.Display
import HclEval.Number.Layout
import HclEval.Value.Basic

/-!
Listings, which show the whole structure of a tree or document. Everything that holds something is
written with an item on each line, four columns further in, and a comma after every item.
-/
namespace HclEval

inductive Listing where
  | word (text : String)
  | tuple (name : String) (items : List Listing)
  | record (name : String) (fields : List (String × Listing))
  | list (items : List Listing)
  | table (entries : List (String × Listing))

namespace Listing

def indent (depth : Nat) : String := String.ofList (List.replicate (4 * depth) ' ')

def enclosed (opening closing : String) (depth : Nat) (lines : List String) : String :=
  if lines.isEmpty then opening ++ closing
  else opening ++ "\n" ++
    String.join (lines.map fun line => indent (depth + 1) ++ line ++ ",\n") ++
    indent depth ++ closing

mutual

def write (depth : Nat) : Listing → String
  | word text => text
  | tuple name items => enclosed (name ++ "(") ")" depth (writeItems (depth + 1) items)
  | record name fields =>
    enclosed (name ++ " \x7b") "\x7d" depth (writeFields (depth + 1) fields)
  | list items => enclosed "[" "]" depth (writeItems (depth + 1) items)
  | table entries => enclosed "\x7b" "\x7d" depth (writeFields (depth + 1) entries)
termination_by structural listing => listing

def writeItems (depth : Nat) : List Listing → List String
  | [] => []
  | item :: rest => item.write depth :: writeItems depth rest

def writeFields (depth : Nat) : List (String × Listing) → List String
  | [] => []
  | (name, item) :: rest => (name ++ ": " ++ item.write depth) :: writeFields depth rest

end

def text (listing : Listing) : String := listing.write 0

def ofString (text : String) : Listing := word (Node.quoted text)

def ofBool (b : Bool) : Listing := word (if b then "true" else "false")

def ofOption : Option Listing → Listing
  | some listing => tuple "Some" [listing]
  | none => word "None"

end Listing

def Position.listing (position : Position) : Listing :=
  .record "Position" [("line", .word (toString position.line)),
    ("column", .word (toString position.column)), ("offset", .word (toString position.offset))]

def TypeKind.listing : TypeKind → Listing
  | any => .word "Any"
  | string => .word "String"
  | number => .word "Number"
  | bool => .word "Bool"
  | list => .word "List"
  | map => .word "Map"
  | set => .word "Set"

def TypeMarker.listing : TypeMarker → Listing
  | bare kind => .record "TypeMarker" [("kind", kind.listing), ("element", .ofOption none)]
  | applied kind element =>
    .record "TypeMarker" [("kind", kind.listing), ("element", .ofOption (some element.listing))]

def Operator.listing : Operator → Listing
  | and => .word "And"
  | or => .word "Or"
  | question => .word "Question"
  | colon => .word "Colon"
  | equal => .word "Equal"
  | notEqual => .word "NotEqual"
  | greater => .word "Greater"
  | greaterEqual => .word "GreaterEqual"
  | less => .word "Less"
  | lessEqual => .word "LessEqual"
  | plus => .word "Plus"
  | minus => .word "Minus"
  | multiply => .word "Multiply"
  | divide => .word "Divide"
  | modulo => .word "Modulo"
  | not => .word "Not"

def LiteralKind.listing : LiteralKind → Listing
  | string => .word "String"
  | number => .word "Number"
  | boolean => .word "Boolean"
  | null => .word "Null"

namespace Node

def attributeListing (name : Listing) (children : List Listing) (position : Option Position) :
    Listing :=
  .tuple "Attribute" [.record "Attribute" [("name", name), ("children", .list children),
    ("position", .ofOption (position.map Position.listing))]]

mutual

def listing : Node → Listing
  | block names children position =>
    .tuple "Block" [.record "Block" [("names", .list (names.map .ofString)),
      ("children", .list (listings children)),
      ("position", .ofOption (position.map Position.listing))]]
  | named name children position =>
    attributeListing (.tuple "Static" [.ofString name]) (listings children) position
  | keyed name children position =>
    attributeListing (.tuple "Dynamic" [name.listing]) (listings children) position
  | map entries => .tuple "Map" [.list (listings entries)]
  | array elements => .tuple "Array" [.list (listings elements)]
  | literal kind raw =>
    .tuple "Literal" [.record "Literal" [("kind", kind.listing), ("raw", .ofString raw)]]
  | type marker => .tuple "Type" [marker.listing]
  | operator symbol => .tuple "Operator" [symbol.listing]
  | reference segments => .tuple "Reference" [.list (listings segments)]
  | segment name => .tuple "Segment" [.ofString name]
  | call name arguments spread =>
    .tuple "Call" [.record "FunctionCall" [("name", .ofString name),
      ("arguments", .list (listings arguments)), ("expand_final", .ofBool spread)]]
  | group children => .tuple "Group" [.list (listings children)]
  | interpolation children => .tuple "Interpolation" [.list (listings children)]
  | comprehension keyVariable valueVariable collection key value condition grouping =>
    .tuple "Comprehension" [.record "Comprehension" [
      ("key_var", .ofOption (keyVariable.map .ofString)),
      ("value_var", .ofString valueVariable),
      ("collection", collection.listing),
      ("key", optionListing key),
      ("value", value.listing),
      ("condition", optionListing condition),
      ("grouping", .ofBool grouping)]]
termination_by structural node => node

def listings : List Node → List Listing
  | [] => []
  | node :: rest => node.listing :: listings rest

def optionListing : Option Node → Listing
  | some node => .ofOption (some node.listing)
  | none => .ofOption none

end

end Node

namespace Value

mutual

def listing : Value → Listing
  | null => .word "Null"
  | bool b => .tuple "Bool" [.ofBool b]
  | number x => .tuple "Number" [.word (Number.listing.write x)]
  | string text => .tuple "String" [.ofString text]
  | list items => .tuple "List" [.list (listings items)]
  | map entries => .tuple "Map" [.table (entryListings entries)]
  | type marker => .tuple "Type" [marker.listing]
  | node tree => .tuple "Node" [tree.listing]
termination_by structural value => value

def listings : List Value → List Listing
  | [] => []
  | value :: rest => value.listing :: listings rest

def entryListings : List (String × Value) → List (String × Listing)
  | [] => []
  | (key, value) :: rest => (Node.quoted key, value.listing) :: entryListings rest

end

end Value

def Document.listing (document : Document) : Listing := .table (Value.entryListings document)

end HclEval
