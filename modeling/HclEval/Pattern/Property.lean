import HclEval.Pattern.CharSet
import HclEval.Pattern.Script
import HclEval.Text.Category

/-!
The named character sets of patterns: the classes written with a backslash, the bracketed ASCII
classes, and properties of Unicode characters.
-/
namespace HclEval.Pattern

open Text.Category

def digits : CharSet := .ranges decimalNumber

def blanks : CharSet := .ranges [(9, 13), (0x20, 0x20), (0x85, 0x85), (0xA0, 0xA0),
  (0x1680, 0x1680), (0x2000, 0x200A), (0x2028, 0x2029), (0x202F, 0x202F), (0x205F, 0x205F),
  (0x3000, 0x3000)]

def letters : CharSet := .ranges (uppercaseLetter ++ lowercaseLetter ++ titlecaseLetter ++
  modifierLetter ++ otherLetter)

def marks : CharSet := .ranges (nonspacingMark ++ spacingMark ++ enclosingMark)

def enclosedLetters : List (Nat × Nat) :=
  [(0x24B6, 0x24E9), (0x1F130, 0x1F149), (0x1F150, 0x1F169), (0x1F170, 0x1F189)]

/-- Letters, marks, digits, connecting punctuation and the joiners. -/
def wordCharacters : CharSet :=
  .union (.union letters marks) (.ranges (decimalNumber ++ letterNumber ++ connectorPunctuation ++
    [(0x200C, 0x200D)] ++ enclosedLetters))

def asciiWord : CharSet := .ranges [(48, 57), (65, 90), (95, 95), (97, 122)]

def asciiClass? : String → Option CharSet
  | "alnum" => some (.ranges [(48, 57), (65, 90), (97, 122)])
  | "alpha" => some (.ranges [(65, 90), (97, 122)])
  | "ascii" => some (.ranges [(0, 127)])
  | "blank" => some (.ranges [(9, 9), (32, 32)])
  | "cntrl" => some (.ranges [(0, 31), (127, 127)])
  | "digit" => some (.ranges [(48, 57)])
  | "graph" => some (.ranges [(33, 126)])
  | "lower" => some (.ranges [(97, 122)])
  | "print" => some (.ranges [(32, 126)])
  | "punct" => some (.ranges [(33, 47), (58, 64), (91, 96), (123, 126)])
  | "space" => some (.ranges [(9, 13), (32, 32)])
  | "upper" => some (.ranges [(65, 90)])
  | "word" => some asciiWord
  | "xdigit" => some (.ranges [(48, 57), (65, 70), (97, 102)])
  | _ => none

def unassigned : CharSet :=
  .complement (.ranges (uppercaseLetter ++ lowercaseLetter ++ titlecaseLetter ++ modifierLetter ++
    otherLetter ++ nonspacingMark ++ spacingMark ++ enclosingMark ++ decimalNumber ++
    letterNumber ++ otherNumber ++ connectorPunctuation ++ dashPunctuation ++ openPunctuation ++
    closePunctuation ++ initialPunctuation ++ finalPunctuation ++ otherPunctuation ++
    mathSymbol ++ currencySymbol ++ modifierSymbol ++ otherSymbol ++ spaceSeparator ++
    lineSeparator ++ paragraphSeparator ++ control ++ format ++ privateUse))

def category? : String → Option CharSet
  | "l" | "letter" => some letters
  | "lc" | "casedletter" =>
    some (.ranges (uppercaseLetter ++ lowercaseLetter ++ titlecaseLetter))
  | "lu" | "uppercaseletter" => some (.ranges uppercaseLetter)
  | "ll" | "lowercaseletter" => some (.ranges lowercaseLetter)
  | "lt" | "titlecaseletter" => some (.ranges titlecaseLetter)
  | "lm" | "modifierletter" => some (.ranges modifierLetter)
  | "lo" | "otherletter" => some (.ranges otherLetter)
  | "m" | "mark" | "combiningmark" => some marks
  | "mn" | "nonspacingmark" => some (.ranges nonspacingMark)
  | "mc" | "spacingmark" => some (.ranges spacingMark)
  | "me" | "enclosingmark" => some (.ranges enclosingMark)
  | "n" | "number" => some (.ranges (decimalNumber ++ letterNumber ++ otherNumber))
  | "nd" | "decimalnumber" | "digit" => some digits
  | "nl" | "letternumber" => some (.ranges letterNumber)
  | "no" | "othernumber" => some (.ranges otherNumber)
  | "p" | "punctuation" | "punct" =>
    some (.ranges (connectorPunctuation ++ dashPunctuation ++ openPunctuation ++
      closePunctuation ++ initialPunctuation ++ finalPunctuation ++ otherPunctuation))
  | "pc" | "connectorpunctuation" => some (.ranges connectorPunctuation)
  | "pd" | "dashpunctuation" => some (.ranges dashPunctuation)
  | "ps" | "openpunctuation" => some (.ranges openPunctuation)
  | "pe" | "closepunctuation" => some (.ranges closePunctuation)
  | "pi" | "initialpunctuation" => some (.ranges initialPunctuation)
  | "pf" | "finalpunctuation" => some (.ranges finalPunctuation)
  | "po" | "otherpunctuation" => some (.ranges otherPunctuation)
  | "s" | "symbol" =>
    some (.ranges (mathSymbol ++ currencySymbol ++ modifierSymbol ++ otherSymbol))
  | "sm" | "mathsymbol" => some (.ranges mathSymbol)
  | "sc" | "currencysymbol" => some (.ranges currencySymbol)
  | "sk" | "modifiersymbol" => some (.ranges modifierSymbol)
  | "so" | "othersymbol" => some (.ranges otherSymbol)
  | "z" | "separator" => some (.ranges (spaceSeparator ++ lineSeparator ++ paragraphSeparator))
  | "zs" | "spaceseparator" => some (.ranges spaceSeparator)
  | "zl" | "lineseparator" => some (.ranges lineSeparator)
  | "zp" | "paragraphseparator" => some (.ranges paragraphSeparator)
  | "c" | "other" => some (.union unassigned (.ranges (control ++ format ++ privateUse)))
  | "cc" | "control" | "cntrl" => some (.ranges control)
  | "cf" | "format" => some (.ranges format)
  | "co" | "privateuse" => some (.ranges privateUse)
  | "cn" | "unassigned" => some unassigned
  | "any" => some .all
  | "ascii" => some (.ranges [(0, 127)])
  | "assigned" => some (.complement unassigned)
  | _ => none

def script? : String → Option CharSet
  | "greek" | "grek" => some (.ranges Script.greek)
  | "latin" | "latn" => some (.ranges Script.latin)
  | "cyrillic" | "cyrl" => some (.ranges Script.cyrillic)
  | "han" | "hani" => some (.ranges Script.han)
  | "hiragana" | "hira" => some (.ranges Script.hiragana)
  | "katakana" | "kana" => some (.ranges Script.katakana)
  | "arabic" | "arab" => some (.ranges Script.arabic)
  | "hebrew" | "hebr" => some (.ranges Script.hebrew)
  | "thai" => some (.ranges Script.thai)
  | "hangul" | "hang" => some (.ranges Script.hangul)
  | "devanagari" | "deva" => some (.ranges Script.devanagari)
  | "armenian" | "armn" => some (.ranges Script.armenian)
  | "georgian" | "geor" => some (.ranges Script.georgian)
  | _ => none

def binary? : String → Option CharSet
  | "alphabetic" | "alpha" =>
    some (.union letters (.ranges (letterNumber ++ enclosedLetters)))
  | "lowercase" | "lower" => some (.ranges lowercaseLetter)
  | "uppercase" | "upper" => some (.ranges uppercaseLetter)
  | "whitespace" | "space" | "wspace" => some blanks
  | _ => none

/-- Names are compared without case, blanks, hyphens and underscores. -/
def plainName (name : List Char) : String :=
  String.ofList ((name.filter fun c => !(c == ' ' || c == '-' || c == '_')).map Char.toLower)

def property? (name : List Char) : Option CharSet :=
  let key := name.takeWhile fun c => !(c == '=' || c == ':')
  match name.drop key.length with
  | [] => let name := plainName name; (category? name).or ((script? name).or (binary? name))
  | _ :: value =>
    match plainName key with
    | "gc" | "generalcategory" => category? (plainName value)
    | "sc" | "script" | "scx" | "scriptextensions" => script? (plainName value)
    | _ => none

end HclEval.Pattern
