import HclEval.Text.Category

/-!
Texts in double quotes. Quotes, backslashes and the usual controls are escaped by a backslash;
a character that has no visible form of its own is written by its code point.
-/
namespace HclEval.Text.Quoted

open Category

def inRanges (ranges : Ranges) (c : Char) : Bool :=
  ranges.any fun (first, last) => first ≤ c.toNat && c.toNat ≤ last

/-- Spacing marks that join the character before them like the nonspacing ones do. -/
def joiningMarks : Ranges := [
  (0x9BE, 0x9BE), (0x9D7, 0x9D7), (0xB3E, 0xB3E), (0xB57, 0xB57), (0xBBE, 0xBBE), (0xBD7, 0xBD7),
  (0xCC2, 0xCC2), (0xCD5, 0xCD6), (0xD3E, 0xD3E), (0xD57, 0xD57), (0xDCF, 0xDCF), (0xDDF, 0xDDF),
  (0x1B35, 0x1B35), (0x200C, 0x200C), (0x302E, 0x302F), (0xFF9E, 0xFF9F), (0x1133E, 0x1133E),
  (0x11357, 0x11357), (0x114B0, 0x114B0), (0x114BD, 0x114BD), (0x115AF, 0x115AF),
  (0x11930, 0x11930), (0x1D165, 0x1D165), (0x1D16E, 0x1D172), (0xE0020, 0xE007F)]

def joins (c : Char) : Bool :=
  inRanges nonspacingMark c || inRanges enclosingMark c || inRanges joiningMarks c

/-- All assigned characters that leave a mark of their own: letters, marks, numbers, punctuation
and symbols. -/
def isVisible (c : Char) : Bool :=
  [uppercaseLetter, lowercaseLetter, titlecaseLetter, modifierLetter, otherLetter,
   spacingMark, nonspacingMark, enclosingMark, decimalNumber, letterNumber, otherNumber,
   connectorPunctuation, dashPunctuation, openPunctuation, closePunctuation, initialPunctuation,
   finalPunctuation, otherPunctuation, mathSymbol, currencySymbol, modifierSymbol,
   otherSymbol].any (inRanges · c)

def isPlain (c : Char) : Bool :=
  if c.toNat < 127 then 32 ≤ c.toNat else isVisible c && !joins c

def writeChar (c : Char) : List Char :=
  if c = '\x00' then ['\\', '0']
  else if c = '\t' then ['\\', 't']
  else if c = '\r' then ['\\', 'r']
  else if c = '\n' then ['\\', 'n']
  else if c = '"' then ['\\', '"']
  else if c = '\\' then ['\\', '\\']
  else if isPlain c then [c]
  else '\\' :: 'u' :: '{' :: Nat.toDigits 16 c.toNat ++ ['}']

def write (text : List Char) : List Char :=
  '"' :: text.flatMap writeChar ++ ['"']

end HclEval.Text.Quoted
