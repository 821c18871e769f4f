import Stratum.Yaml.Fault
import Stratum.Yaml.Source

/-!
# Moving through a text

A cursor is the rest of a text with the mark of its first character. What moves a cursor looks at
the characters ahead and passes over them; behind the end of a whole text there is no character, and
behind the end of a text that was cut off there is a fault.
-/

namespace Stratum.Yaml

/-! ## Characters -/

/-- A character that ends a line. -/
def isBreak (c : Char) : Bool :=
  c == '\r' || c == '\n' || c == '\x85' || c == '\u2028' || c == '\u2029'

/-- The end of a line, or of the text. -/
def endsLine : Option Char → Bool
  | none => true
  | some c => isBreak c

/-- A space, or the end of a line. -/
def endsWord (c : Option Char) : Bool := c == some ' ' || endsLine c

/-- A space or a tab, or the end of a line. -/
def isGap (c : Option Char) : Bool := c == some '\t' || endsWord c

/-- A character of an anchor or of the name of a handle or a directive. -/
def isNameChar (c : Char) : Bool := c.isAlphanum || c == '-' || c == '_'

/-! ## Cursors -/

/-- The rest of a text, whether it was cut off, how many characters lie before it, and the mark of
the first one left. -/
structure Cursor where
  rest : List Char
  cut : Bool
  index : Nat
  mark : Mark

/-- The start of a text. -/
def Cursor.ofSource (s : Source) : Cursor := ⟨s.chars, s.cut, 0, ⟨0, 0⟩⟩

/-- The mark after a character. A byte order mark takes no column, and a carriage return ends a line
only if no line feed comes next. -/
def Mark.after (m : Mark) (c : Char) (next : Option Char) : Mark :=
  if isBreak c && !(c == '\r' && next == some '\n') then ⟨m.line + 1, 0⟩
  else if c == '\ufeff' then m
  else ⟨m.line, m.column + 1⟩

/-- The cursor so many characters on. -/
def Cursor.advance : (n : Nat) → Cursor → Cursor
  | 0, c => c
  | n + 1, c =>
    match c.rest with
    | [] => c
    | ch :: rest => advance n ⟨rest, c.cut, c.index + 1, c.mark.after ch rest.head?⟩

/-- A reading moves a cursor and gives a result, or meets a fault. -/
abbrev Reading (α : Type) := StateT Cursor (Except Fault) α

namespace Reading

/-- The mark of the next character. -/
def mark : Reading Mark := fun c => .ok (c.mark, c)

/-- The column of the next character. -/
def column : Reading Nat := fun c => .ok (c.mark.column, c)

/-- A lexical fault at the mark of the next character. -/
def fail {α : Type} : Reading α := fun c => .error (.lexical c.mark)

/-- The character so many places ahead, if the text is that long. -/
def peek (n : Nat) : Reading (Option Char) := fun c =>
  match c.rest.drop n with
  | ch :: _ => .ok (some ch, c)
  | [] => if c.cut then .error .unreadable else .ok (none, c)

/-- Passes over so many characters. One more has to be readable. -/
def skip (n : Nat) : Reading Unit := fun c =>
  if c.cut && (c.rest.drop n).isEmpty then .error .unreadable else .ok ((), c.advance n)

/-- Passes over so many characters and gives them. -/
def take (n : Nat) : Reading (List Char) := do
  let c ← get
  skip n
  return c.rest.take n

/-- The number of characters ahead that belong to a class. The one behind them has to be
readable. -/
def run (mem : Char → Bool) : Reading Nat := fun c =>
  let n := (c.rest.takeWhile mem).length
  if c.cut && (c.rest.drop n).isEmpty then .error .unreadable else .ok (n, c)

/-- Passes over the characters ahead that belong to a class and gives them. -/
def takeWhile (mem : Char → Bool) : Reading (List Char) := do take (← run mem)

/-- Passes over the characters ahead that belong to a class. -/
def skipWhile (mem : Char → Bool) : Reading Unit := do skip (← run mem)

/-- Passes over the spaces ahead. -/
def skipSpaces : Reading Unit := skipWhile (· == ' ')

/-- Passes over the end of a line and gives the character it counts as. -/
def lineBreak? : Reading (Option Char) := do
  match ← peek 0 with
  | some '\r' =>
    if (← peek 1) == some '\n' then skip 2 else skip 1
    return some '\n'
  | some c =>
    if c == '\u2028' || c == '\u2029' then
      skip 1
      return some c
    else if isBreak c then
      skip 1
      return some '\n'
    else return none
  | none => return none

/-- Whether three hyphens, or three points, stand ahead alone. -/
def atSeparator (marks : List (List Char)) : Reading Bool := do
  let c ← get
  let head := c.rest.take 3
  if c.cut && head.length < 3 then throw .unreadable
  else if marks.contains head then return isGap (← peek 3)
  else return false

/-- The mark that starts a document. -/
def startMark : List Char := ['-', '-', '-']

/-- The mark that ends a document. -/
def endMark : List Char := ['.', '.', '.']

/-- Whether a mark that starts or ends a document stands ahead. -/
def atDocumentMark : Reading Bool := atSeparator [startMark, endMark]

/-- Passes over the rest of a line that holds nothing more than a comment. -/
def skipLineEnd : Reading Unit := do
  skipSpaces
  if (← peek 0) == some '#' then skipWhile (!isBreak ·)
  if endsLine (← peek 0) then
    let _ ← lineBreak?
  else fail

end Reading
end Stratum.Yaml
