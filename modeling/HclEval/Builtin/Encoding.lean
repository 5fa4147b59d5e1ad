import HclEval.Builtin.Arguments
import HclEval.Json.Reader
import HclEval.Json.Writer
import HclEval.Text.Base64
import HclEval.Text.Utf8

/-!
Built-in functions that encode and decode values and texts.
-/
namespace HclEval.Builtin

open Text

def jsonEncode (arguments : List Value) : Option Value :=
  arguments.head?.map fun value => .string (Json.write value)

def jsonDecode (arguments : List Value) : Option Value :=
  (stringAt? arguments 0).bind Json.read?

def toBase64 (text : String) : String :=
  String.ofList (Base64.encode (Utf8.encode text.toList))

def base64Encode (arguments : List Value) : Option Value :=
  (stringAt? arguments 0).map (.string ∘ toBase64)

/-- Fails for a text that is no base64; bytes that are no UTF-8 are replaced. -/
def base64Decode : Function := fun _ arguments =>
  match stringAt? arguments 0 with
  | none => .ok .null
  | some text =>
    match Base64.decode? text.toList with
    | some bytes => .ok (.string (String.ofList (Utf8.decodeLossy bytes)))
    | none => .error "base64decode: input is not valid base64"

def isUtf8 (charset : String) : Bool :=
  let name := String.ofList (charset.toList.map Char.toLower)
  name == "utf-8" || name == "utf8"

def textEncodeBase64 (arguments : List Value) : Option Value := do
  let text ← stringAt? arguments 0
  let charset ← stringAt? arguments 1
  if isUtf8 charset then some (.string (toBase64 text)) else none

def textDecodeBase64 (arguments : List Value) : Option Value := do
  let text ← stringAt? arguments 0
  let charset ← stringAt? arguments 1
  if isUtf8 charset then
    let bytes ← Base64.decode? text.toList
    let chars ← Utf8.decode? bytes
    some (.string (String.ofList chars))
  else none

def toText (arguments : List Value) : Option Value := do
  match ← arguments.head? with
  | .string text => some (.string text)
  | .number x => some (.string x.text)
  | .bool b => some (.string (Value.bool b).text)
  | _ => none

def encodingFunctions : Table Function := [
  ("jsonencode", total jsonEncode),
  ("jsondecode", total jsonDecode),
  ("base64encode", total base64Encode),
  ("base64decode", base64Decode),
  ("textencodebase64", total textEncodeBase64),
  ("textdecodebase64", total textDecodeBase64),
  ("tostring", total toText)]

end HclEval.Builtin
