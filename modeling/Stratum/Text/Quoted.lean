import Stratum.Text.Printable

/-!
# Quoted text

How a text or a run of bytes is quoted inside a message: in single quotes, or in double quotes if it
holds a single quote and no double one. The quote and the backslash are escaped, printable
characters stand for themselves, and all others are spelled as in a diagnostic.
-/

namespace Stratum.Text

/-- The quotation mark for a text: single, unless only the double one is free. -/
def quoteMark (ps : List CodePoint) : Char :=
  if .char '\x27' ∈ ps ∧ .char '\x22' ∉ ps then '\x22' else '\x27'

/-- A character between quotation marks. -/
def quotedChar (mark c : Char) : List Char :=
  if c = mark ∨ c = '\\' then ['\\', c] else escapeChar c

/-- A code point between quotation marks; a surrogate is spelled by its number. -/
def quotedPoint (mark : Char) : CodePoint → List Char
  | .char c => quotedChar mark c
  | .surrogate s => codeEscape s.code

/-- The characters of a text between quotation marks. -/
def quoteChars (ps : List CodePoint) : List Char :=
  let mark := quoteMark ps
  mark :: ps.flatMap (quotedPoint mark) ++ [mark]

/-- Code points between quotation marks. -/
def quotePoints (ps : List CodePoint) : String := String.ofList (quoteChars ps)

/-- A text between quotation marks. -/
def quote (s : String) : String := quotePoints (codePoints s)

/-- A byte between quotation marks: outside ASCII always by its value. -/
def quotedByte (mark : Char) (b : UInt8) : List Char :=
  if b.toNat < 0x7f then quotedChar mark (Char.ofNat b.toNat) else codeEscape b.toNat

/-- Bytes between quotation marks, told from a text by the letter before them. -/
def quoteBytes (bytes : List UInt8) : String :=
  let mark := quoteMark (bytes.map fun b => .char (Char.ofNat b.toNat))
  String.ofList ('b' :: mark :: bytes.flatMap (quotedByte mark) ++ [mark])

end Stratum.Text
