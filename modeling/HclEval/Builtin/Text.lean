import HclEval.Builtin.Arguments
import HclEval.Json.Writer
import HclEval.Pattern.Reader
import HclEval.Text.Blank
import HclEval.Text.LetterCase

/-!
Built-in functions on texts. Lengths and places count characters.
-/
namespace HclEval.Builtin

/-- The pieces between the places where a separator occurs, found from left to right. `skip`
characters still belong to an occurrence. -/
def pieces (separator : List Char) : (skip : Nat) → List Char → List (List Char)
  | _, [] => [[]]
  | skip + 1, _ :: rest => pieces separator skip rest
  | 0, c :: rest =>
    if separator.isPrefixOf (c :: rest) then [] :: pieces separator (separator.length - 1) rest
    else match pieces separator 0 rest with
      | piece :: others => (c :: piece) :: others
      | [] => [[c]]

/-- Splits a text; the empty separator cuts around every character. -/
def split (separator text : List Char) : List (List Char) :=
  if separator.isEmpty then [] :: text.map ([·]) ++ [[]] else pieces separator 0 text

def join (separator : List Char) (parts : List (List Char)) : List Char :=
  separator.intercalate parts

def replace (text search replacement : List Char) : List Char :=
  join replacement (split search text)

def trimStart (front text : List Char) : List Char :=
  if front.isPrefixOf text then text.drop front.length else text

def trimEnd (back text : List Char) : List Char :=
  if back.isSuffixOf text then text.take (text.length - back.length) else text

/-- Where a part of a text of `count` characters starts; a negative offset counts from the end. -/
def partStart (count offset : Int) : Int :=
  max 0 (min count (if offset < 0 then count + offset else offset))

/-- Where it ends; a negative length means the end of the text. -/
def partEnd (count offset length : Int) : Int :=
  if length < 0 then count else min (partStart count offset + length) count

def part (text : List Char) (offset length : Int) : List Char :=
  let first := (partStart text.length offset).toNat
  let last := (partEnd text.length offset length).toNat
  (text.drop first).take (last - first)

def isVerb (c : Char) : Bool := c == 's' || c == 'v' || c == 'd' || c == 'f' || c == 'q'

def writeArgument (verb : Char) (value : Value) : List Char :=
  (match verb, value with
    | 'd', .number x => Number.writeInt x.toInt64
    | 'f', .number x => x.writeFixed
    | 'q', value => Node.quoted value.text
    | _, value => value.text).toList

/-- Replaces verbs by arguments in order, as long as there are any, and `%%` by `%`. -/
def format : List Char → List Value → List Char
  | [], _ => []
  | '%' :: c :: rest, arguments =>
    if c == '%' then '%' :: format rest arguments
    else if isVerb c then
      match arguments with
      | [] => '%' :: c :: format rest []
      | value :: others => writeArgument c value ++ format rest others
    else '%' :: c :: format rest arguments
  | c :: rest, arguments => c :: format rest arguments

def firstText? (arguments : List Value) : Option String := do
  let value ← arguments.head?
  if value.isNull then none else some value.text

def text (chars : List Char) : Value := .string (String.ofList chars)

def texts (parts : List (List Char)) : Value := .list (parts.map text)

def splitText (arguments : List Value) : Option Value := do
  let separator ← stringAt? arguments 0
  let value ← stringAt? arguments 1
  return texts (split separator.toList value.toList)

def joinTexts (arguments : List Value) : Option Value := do
  let separator ← stringAt? arguments 0
  let items ← listAt? arguments 1
  return text (join separator.toList (items.map (·.text.toList)))

def formatText (arguments : List Value) : Option Value := do
  let spec ← stringAt? arguments 0
  return text (format spec.toList (arguments.drop 1))

def partOfText (arguments : List Value) : Option Value := do
  let value ← stringAt? arguments 0
  let offset ← numberAt? arguments 1
  let length ← numberAt? arguments 2
  return text (part value.toList offset.toInt64 length.toInt64)

def replaceText (arguments : List Value) : Option Value := do
  let value ← stringAt? arguments 0
  let search ← stringAt? arguments 1
  let replacement ← stringAt? arguments 2
  return text (replace value.toList search.toList replacement.toList)

def matchAll (arguments : List Value) : Option Value := do
  let pattern ← stringAt? arguments 0
  let found ← Pattern.findAll? pattern ((stringAt? arguments 1).getD "")
  return .list (found.map .string)

def onTexts (f : List Char → List Char → Value) : Function :=
  total fun arguments => do
    let value ← stringAt? arguments 0
    let other ← stringAt? arguments 1
    return f value.toList other.toList

/-- The first argument that is neither `null` nor a reference that leads nowhere. -/
def firstPresent (arguments : List Value) : Option Value :=
  arguments.find? fun value => !value.isNull && !value.isUnresolved

def firstFilled (arguments : List Value) : Option Value :=
  arguments.find? fun value => !value.isNull && value.string? != some ""

/-- A random-looking identifier of version 4; no two calls after one another get the same. -/
def identifier (n : Nat) : String :=
  let size := Nat.pow 2 128
  let digits := Nat.toDigits 16 (size + (n + 1) * 0x9E3779B97F4A7C15F39CC0605CEDC835 % size)
  let digits := digits.drop 1
  let digitsAt (i k : Nat) : List Char := (digits.drop i).take k
  String.ofList (digitsAt 0 8 ++ '-' :: digitsAt 8 4 ++ '-' :: '4' :: digitsAt 13 3 ++
    '-' :: 'a' :: digitsAt 17 3 ++ '-' :: digitsAt 20 12)

/-- The date of a day counted from the first of January 1970, by eras of 400 years that begin
in March. -/
def civilDate (day : Nat) : Nat × Nat × Nat :=
  let shifted := day + 719468
  let era := shifted / 146097
  let dayOfEra := shifted % 146097
  let yearOfEra := (dayOfEra - dayOfEra / 1460 + dayOfEra / 36524 - dayOfEra / 146096) / 365
  let dayOfYear := dayOfEra - (365 * yearOfEra + yearOfEra / 4 - yearOfEra / 100)
  let month := (5 * dayOfYear + 2) / 153
  (yearOfEra + era * 400 + (if month < 10 then 0 else 1),
    if month < 10 then month + 3 else month - 9, dayOfYear - (153 * month + 2) / 5 + 1)

def twoDigits (n : Nat) : String :=
  String.ofList (if n < 10 then '0' :: Nat.toDigits 10 n else Nat.toDigits 10 n)

def timestamp (seconds : Nat) : String :=
  let (year, month, day) := civilDate (seconds / 86400)
  let time := seconds % 86400
  let zeros := List.replicate (4 - (Nat.toDigits 10 year).length) '0'
  let padded := String.ofList zeros ++ toString year
  padded ++ "-" ++ twoDigits month ++ "-" ++ twoDigits day ++ "T" ++ twoDigits (time / 3600) ++
    ":" ++ twoDigits (time / 60 % 60) ++ ":" ++ twoDigits (time % 60) ++ "Z"

def textFunctions (now : Nat) : Table Function := [
  ("upper", total fun arguments =>
    (firstText? arguments).map fun value => text (Text.LetterCase.upper value.toList)),
  ("lower", total fun arguments =>
    (firstText? arguments).map fun value => text (Text.LetterCase.lower value.toList)),
  ("format", total formatText),
  ("trimspace", total fun arguments =>
    (stringAt? arguments 0).map fun value => text (Text.trim value.toList)),
  ("trim", onTexts fun value cutset => text (Text.trimBoth cutset.contains value)),
  ("trimprefix", onTexts fun value front => text (trimStart front value)),
  ("trimsuffix", onTexts fun value back => text (trimEnd back value)),
  ("strrev", total fun arguments =>
    (stringAt? arguments 0).map fun value => text value.toList.reverse),
  ("regexall", total matchAll),
  ("split", total splitText),
  ("join", total joinTexts),
  ("startswith", onTexts fun value front => .bool (front.isPrefixOf value)),
  ("endswith", onTexts fun value back => .bool (back.isSuffixOf value)),
  ("substr", total partOfText),
  ("replace", total replaceText),
  ("try", total firstPresent),
  ("coalesce", total firstFilled),
  ("uuid", fun before _ => .ok (.string (identifier before.length))),
  ("timestamp", fun _ _ => .ok (.string (timestamp now)))]

end HclEval.Builtin
