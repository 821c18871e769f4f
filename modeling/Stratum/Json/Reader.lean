import Stratum.Number.Numeral
import Stratum.Value.Basic

/-!
# JSON

Reading of JSON texts. Besides what the format has, the words for infinity and for what is not a
number stand for themselves. A name that comes twice in an object keeps its place and gets the later
value. A text that is no JSON is reported by what was missing and by the offset where it was looked
for.
-/

namespace Stratum.Json

open Text (CodePoint)

/-- What is wrong with a text. -/
inductive Problem
  | byteOrderMark
  | noValue
  | noName
  | noColon
  | noComma
  | controlCharacter
  | openString
  | escape
  | codeEscape
  | extraText
  deriving DecidableEq, Repr

/-- The words for a problem. -/
def Problem.message : Problem → String
  | .byteOrderMark => "Unexpected UTF-8 BOM (decode using utf-8-sig)"
  | .noValue => "Expecting value"
  | .noName => "Expecting property name enclosed in double quotes"
  | .noColon => "Expecting ':' delimiter"
  | .noComma => "Expecting ',' delimiter"
  | .controlCharacter => "Invalid control character at"
  | .openString => "Unterminated string starting at"
  | .escape => "Invalid \\escape"
  | .codeEscape => "Invalid \\uXXXX escape"
  | .extraText => "Extra data"

/-- Why a text has no value: it is no JSON, or it holds a number that cannot be read. -/
inductive Fault
  | malformed (problem : Problem) (offset : Nat)
  | numeral (fault : Numeral.Fault)
  deriving DecidableEq, Repr

/-- The rest of a text, and how many characters lie before it. -/
structure Cursor where
  offset : Nat
  rest : List Char

/-- A problem at the place of the cursor. -/
def Cursor.fault {α : Type} (c : Cursor) (problem : Problem) : Except Fault α :=
  .error (.malformed problem c.offset)

/-- The cursor so many characters on. -/
def Cursor.advance (c : Cursor) (n : Nat) : Cursor := ⟨c.offset + n, c.rest.drop n⟩

/-- A character that may stand between the parts of a text. -/
def isGap (c : Char) : Bool := c == ' ' || c == '\t' || c == '\n' || c == '\r'

/-- The cursor behind the gap it stands before. -/
def Cursor.skipGap (c : Cursor) : Cursor := c.advance (c.rest.takeWhile isGap).length

/-! ## Strings -/

/-- The character of a backslash with one letter. -/
def letterEscape? : Char → Option Char
  | '\x22' => some '\x22'
  | '\\' => some '\\'
  | '/' => some '/'
  | 'b' => some '\x08'
  | 'f' => some '\x0c'
  | 'n' => some '\n'
  | 'r' => some '\r'
  | 't' => some '\t'
  | _ => none

/-- The code point of two code units, if the first opens a pair that the second closes. -/
def pair? (first second : Nat) : Option CodePoint :=
  match CodePoint.ofNat first, CodePoint.ofNat second with
  | .surrogate s, .surrogate t => if s.isHigh && !t.isHigh then some (.char (s.join t)) else none
  | _, _ => none

/-- Whether a code unit opens a pair. -/
def isHighUnit (n : Nat) : Bool :=
  match CodePoint.ofNat n with
  | .surrogate s => s.isHigh
  | .char _ => false

/-- The code points of a string up to its closing quotation mark, and the cursor behind it; `start`
is the place of the opening one. A code escape needs a character behind it to count as one. -/
def readString (start : Nat) : (offset : Nat) → List Char → Except Fault (List CodePoint × Cursor)
  | _, [] => .error (.malformed .openString start)
  | n, '\x22' :: rest => .ok ([], ⟨n + 1, rest⟩)
  | _, ['\\'] => .error (.malformed .openString start)
  | n, '\\' :: 'u' :: a :: b :: c :: d :: e :: tail =>
    match Text.hexNumber? [a, b, c, d] with
    | none => .error (.malformed .codeEscape (n + 1))
    | some high =>
      let alone := (readString start (n + 6) (e :: tail)).map fun (ps, after) =>
        (CodePoint.ofNat high :: ps, after)
      match e, tail with
      | '\\', 'u' :: f :: g :: h :: i :: j :: tail' =>
        if isHighUnit high then
          match Text.hexNumber? [f, g, h, i] with
          | none => .error (.malformed .codeEscape (n + 7))
          | some low =>
            match pair? high low with
            | some point =>
              (readString start (n + 12) (j :: tail')).map fun (ps, after) => (point :: ps, after)
            | none => alone
        else alone
      | _, _ => alone
  | n, '\\' :: c :: rest =>
    if c = 'u' then .error (.malformed .codeEscape (n + 1))
    else match letterEscape? c with
      | none => .error (.malformed .escape n)
      | some d => (readString start (n + 2) rest).map fun (ps, after) => (.char d :: ps, after)
  | n, c :: rest =>
    if c.toNat < 0x20 then .error (.malformed .controlCharacter n)
    else (readString start (n + 1) rest).map fun (ps, after) => (.char c :: ps, after)

/-! ## Numbers -/

/-- The digits of a whole part: a zero alone, or digits that start with another one. -/
def wholePart : List Char → List Char
  | '0' :: _ => ['0']
  | cs => cs.takeWhile Char.isDigit

/-- A point with digits behind it. -/
def fractionPart : List Char → List Char
  | '.' :: rest =>
    match rest.takeWhile Char.isDigit with
    | [] => []
    | ds => '.' :: ds
  | _ => []

/-- A letter, perhaps a sign, and digits. -/
def exponentPart : List Char → List Char
  | c :: rest =>
    if c = 'e' ∨ c = 'E' then
      let sign := (rest.take 1).filter fun s => s == '+' || s == '-'
      match (rest.drop sign.length).takeWhile Char.isDigit with
      | [] => []
      | ds => c :: sign ++ ds
    else []
  | [] => []

/-- The number at the cursor: whole, or a double if it has a fraction or an exponent. -/
def readNumber (c : Cursor) : Except Fault (Atom × Cursor) :=
  let sign := (c.rest.take 1).filter (· == '-')
  let whole := wholePart (c.rest.drop sign.length)
  if whole = [] then c.fault .noValue
  else
    let integral := sign ++ whole
    let fraction := fractionPart (c.rest.drop integral.length)
    let exponent := exponentPart (c.rest.drop (integral.length + fraction.length))
    let lexeme := integral ++ fraction ++ exponent
    let number : Except Numeral.Fault Atom :=
      if fraction = [] ∧ exponent = [] then (Numeral.readInt 10 (lexeme.map .char)).map .int
      else (Numeral.readReal (lexeme.map .char)).map .real
    match number with
    | .ok a => .ok (a, c.advance lexeme.length)
    | .error fault => .error (.numeral fault)

/-! ## Values -/

/-- The words that stand for an atom. -/
def words : List (String × Atom) := [
  ("null", .null), ("true", .bool true), ("false", .bool false), ("NaN", .real (.nan 0)),
  ("Infinity", .real (.infinity false)), ("-Infinity", .real (.infinity true))]

/-- The word at the cursor. -/
def readWord? (c : Cursor) : Option (Atom × Cursor) :=
  (words.find? fun (w, _) => w.toList.isPrefixOf c.rest).map fun (w, a) =>
    (a, c.advance w.toList.length)

mutual

/-- The value at the cursor. Every second call moves the cursor on, so that twice the length of the
text is fuel enough. -/
def readValue : (fuel : Nat) → Cursor → Except Fault (Value × Cursor)
  | 0, c => c.fault .noValue
  | fuel + 1, c =>
    match c.rest with
    | '\x22' :: rest => do
      let (ps, c) ← readString c.offset (c.offset + 1) rest
      .ok (.atom (.ofCodePoints ps), c)
    | '{' :: _ =>
      let c := (c.advance 1).skipGap
      if c.rest.head? = some '}' then .ok (.map [], c.advance 1)
      else do
        let (members, c) ← readMembers fuel c
        .ok (.map (Entries.ofPairs members), c)
    | '[' :: _ =>
      let c := (c.advance 1).skipGap
      if c.rest.head? = some ']' then .ok (.list [], c.advance 1)
      else do
        let (items, c) ← readItems fuel c
        .ok (.list items, c)
    | _ =>
      match readWord? c with
      | some (a, c) => .ok (.atom a, c)
      | none => (readNumber c).map fun (a, c) => (.atom a, c)

/-- The members of an object that has some, up to the closing brace. -/
def readMembers : (fuel : Nat) → Cursor → Except Fault (List (Atom × Value) × Cursor)
  | 0, c => c.fault .noName
  | fuel + 1, c =>
    match c.rest with
    | '\x22' :: rest => do
      let (name, c) ← readString c.offset (c.offset + 1) rest
      let c := c.skipGap
      if c.rest.head? ≠ some ':' then c.fault .noColon
      else
        let (v, c) ← readValue fuel (c.advance 1).skipGap
        let member : Atom × Value := (.ofCodePoints name, v)
        let c := c.skipGap
        if c.rest.head? = some '}' then .ok ([member], c.advance 1)
        else if c.rest.head? ≠ some ',' then c.fault .noComma
        else
          let (members, c) ← readMembers fuel (c.advance 1).skipGap
          .ok (member :: members, c)
    | _ => c.fault .noName

/-- The items of an array that has some, up to the closing bracket. -/
def readItems : (fuel : Nat) → Cursor → Except Fault (List Value × Cursor)
  | 0, c => c.fault .noValue
  | fuel + 1, c => do
    let (v, c) ← readValue fuel c
    let c := c.skipGap
    if c.rest.head? = some ']' then .ok ([v], c.advance 1)
    else if c.rest.head? ≠ some ',' then c.fault .noComma
    else
      let (items, c) ← readItems fuel (c.advance 1).skipGap
      .ok (v :: items, c)

end

/-- The value of a whole text. -/
def read (text : List Char) : Except Fault Value :=
  let start : Cursor := ⟨0, text⟩
  if text.head? = some '\ufeff' then start.fault .byteOrderMark
  else do
    let (v, c) ← readValue (2 * text.length + 2) start.skipGap
    let c := c.skipGap
    if c.rest = [] then .ok v else c.fault .extraText

/-- Line and column of an offset in a text, both counted from one. -/
def place (text : List Char) (offset : Nat) : Nat × Nat :=
  let before := text.take offset
  (before.count '\n' + 1, (before.reverse.takeWhile (· != '\n')).length + 1)

end Stratum.Json
