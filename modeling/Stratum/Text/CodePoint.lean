/-!
# Code points

What a text is made of where escapes may spell anything: characters, and surrogates, which are the
halves that UTF-16 cuts large characters into. A surrogate is no character, so a text that holds one
is no ordinary text; it is kept apart from those, and only in writing a high surrogate and a low one
next to each other become the character that they are the halves of.
-/

namespace Stratum.Text

/-- A code point that is no character. -/
structure Surrogate where
  code : Nat
  bounds : 0xd800 ≤ code ∧ code < 0xe000
  deriving DecidableEq, Repr

namespace Surrogate

/-- Whether a surrogate is the first half of a character. -/
def isHigh (s : Surrogate) : Bool := s.code < 0xdc00

/-- The character of a high and a low surrogate. -/
def join (high low : Surrogate) : Char :=
  Char.ofNat (0x10000 + (high.code - 0xd800) * 0x400 + (low.code - 0xdc00))

end Surrogate

/-- A character or a surrogate. -/
inductive CodePoint
  | char (c : Char)
  | surrogate (s : Surrogate)
  deriving DecidableEq, Repr

/-- The character that stands for what is none. -/
def replacement : Char := Char.ofNat 0xfffd

namespace CodePoint

/-- The code point of a number below `0x110000`. -/
def ofNat (n : Nat) : CodePoint :=
  if h : 0xd800 ≤ n ∧ n < 0xe000 then .surrogate ⟨n, h⟩ else .char (Char.ofNat n)

/-- The number of a code point. -/
def toNat : CodePoint → Nat
  | char c => c.toNat
  | surrogate s => s.code

/-- The code point as a character; a surrogate is replaced. -/
def toChar : CodePoint → Char
  | char c => c
  | surrogate _ => replacement

/-- The characters of code points, if there is no surrogate among them. -/
def chars? : List CodePoint → Option (List Char)
  | [] => some []
  | char c :: rest => (chars? rest).map (c :: ·)
  | surrogate _ :: _ => none

/-- The code points as they are written: surrogates that belong together are joined, and one that
stands alone is replaced. -/
def written : List CodePoint → List Char
  | [] => []
  | char c :: rest => c :: written rest
  | surrogate s :: surrogate t :: rest =>
    if s.isHigh && !t.isHigh then s.join t :: written rest
    else replacement :: written (surrogate t :: rest)
  | surrogate _ :: rest => replacement :: written rest

/-- Characters are written as they are. -/
@[simp] theorem written_map_char (cs : List Char) : written (cs.map char) = cs := by
  induction cs with
  | nil => rfl
  | cons c cs ih => simp [written, ih]

end CodePoint

/-- The code points of a text. -/
def codePoints (s : String) : List CodePoint := s.toList.map .char

/-! ## Properties -/

/-- Whether the number of switches at or below `n` is odd; `switches` is in increasing order. -/
def insideRun (n : Nat) : List Nat → Bool
  | [] => false
  | s :: rest => if s ≤ n then !insideRun n rest else false

end Stratum.Text
