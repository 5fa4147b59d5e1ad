/-!
Type declarations such as `string` or `list(map(string))`. They are kept as written; no value
is ever checked against one.
-/
namespace HclEval

inductive TypeKind where
  | any | string | number | bool | list | map | set
  deriving DecidableEq, Repr

namespace TypeKind

def word : TypeKind → String
  | any => "any"
  | string => "string"
  | number => "number"
  | bool => "bool"
  | list => "list"
  | map => "map"
  | set => "set"

def ofKeyword? : String → Option TypeKind
  | "any" => some any
  | "string" => some string
  | "number" => some number
  | "bool" | "boolean" => some bool
  | _ => none

def ofConstructor? : String → Option TypeKind
  | "list" => some list
  | "map" => some map
  | "set" => some set
  | _ => none

end TypeKind

inductive TypeMarker where
  | bare (kind : TypeKind)
  | applied (kind : TypeKind) (element : TypeMarker)
  deriving DecidableEq, Repr

namespace TypeMarker

def kind : TypeMarker → TypeKind
  | bare kind => kind
  | applied kind _ => kind

def text : TypeMarker → String
  | bare kind => kind.word
  | applied kind element => kind.word ++ "(" ++ element.text ++ ")"

end TypeMarker
end HclEval
