import Stratum.Number.Binary64
import Stratum.Text.Blank
import Stratum.Text.Digit
import Stratum.Text.Quoted

/-!
# Numerals

Reading of whole numbers in a given base and of decimal fractions from a text. Digits of every
script count, and blanks at the ends are passed over; a surrogate is no part of a numeral. A whole
number in decimal may have 4300 digits at most, when it is read and when it is written; the other
bases that occur are powers of two and have no limit.
-/

namespace Stratum.Numeral

open Text (CodePoint)

/-- Why a text is not a numeral, or a number has none. -/
inductive Fault
  | notWhole (base : Nat) (text : List CodePoint)
  | tooManyDigits (count : Nat)
  | tooLongToWrite
  | notReal (text : List CodePoint)
  deriving DecidableEq, Repr

/-- The largest number of digits of a decimal whole number. -/
def digitLimit : Nat := 4300

/-- The words for a fault; a long text is cut off in the first one. -/
def Fault.message : Fault → String
  | .notWhole base text =>
    "invalid literal for int() with base " ++ toString base ++ ": " ++
      String.ofList ((Text.quoteChars text).take 200)
  | .tooManyDigits count =>
    "Exceeds the limit (" ++ toString digitLimit ++
      " digits) for integer string conversion: value has " ++ toString count ++
      " digits; use sys.set_int_max_str_digits() to increase the limit"
  | .tooLongToWrite =>
    "Exceeds the limit (" ++ toString digitLimit ++
      " digits) for integer string conversion; use sys.set_int_max_str_digits() to increase the " ++
      "limit"
  | .notReal text => "could not convert string to float: " ++ Text.quotePoints text

/-- A blank that may stand around a numeral: all but the four separators of ASCII. -/
def isSpace (c : Char) : Bool := Text.isBlank c && !(28 ≤ c.toNat && c.toNat ≤ 31)

/-- The value of a digit: decimal digits of any script, then the letters of ASCII. -/
def digit? (base : Nat) (c : Char) : Option Nat :=
  let value : Option Nat :=
    if c.isLower then some (c.toNat - 'a'.toNat + 10)
    else if c.isUpper then some (c.toNat - 'A'.toNat + 10)
    else Text.digitValue? c
  value.filter (· < base)

/-- The digits a text starts with, and the text after them. -/
def digits (base : Nat) : List Char → List Nat × List Char
  | [] => ([], [])
  | c :: rest =>
    match digit? base c with
    | some d => let (ds, tail) := digits base rest; (d :: ds, tail)
    | none => ([], c :: rest)

/-- The number that digits spell. -/
def ofDigits (base : Nat) (ds : List Nat) : Nat := ds.foldl (fun n d => n * base + d) 0

/-- An optional sign: whether it is a minus, and the text after it. -/
def sign : List Char → Bool × List Char
  | '-' :: rest => (true, rest)
  | '+' :: rest => (false, rest)
  | cs => (false, cs)

/-- The text without the mark that spells its base. -/
def dropBaseMark (base : Nat) : List Char → List Char
  | '0' :: c :: rest =>
    if (base = 16 ∧ (c = 'x' ∨ c = 'X')) ∨ (base = 8 ∧ (c = 'o' ∨ c = 'O')) ∨
        (base = 2 ∧ (c = 'b' ∨ c = 'B')) then rest
    else '0' :: c :: rest
  | cs => cs

/-- A base whose numerals may be of any length. -/
def unlimited (base : Nat) : Bool := base == 2 || base == 8 || base == 16

/-- The whole number that a text spells in a base. -/
def readInt (base : Nat) (text : List CodePoint) : Except Fault Int :=
  let (negative, cs) := sign ((text.map CodePoint.toChar).dropWhile isSpace)
  let (ds, tail) := digits base (dropBaseMark base cs)
  if !unlimited base && digitLimit < ds.length then .error (.tooManyDigits ds.length)
  else if ds = [] ∨ tail.any (!isSpace ·) then .error (.notWhole base text)
  else
    let n : Int := ofDigits base ds
    .ok (if negative then -n else n)

/-- The numeral of a whole number, which may not be too long. -/
def write (n : Int) : Except Fault String :=
  if n.natAbs < Nat.pow 10 digitLimit then .ok (toString n) else .error .tooLongToWrite

/-- The words for infinity and for what is not a number. -/
inductive Word
  | infinite
  | notANumber
  deriving DecidableEq, Repr

/-- A word instead of digits, in letters of any case. -/
def word? (cs : List Char) : Option Word :=
  let w := String.ofList (cs.map Char.toLower)
  if w = "inf" ∨ w = "infinity" then some .infinite
  else if w = "nan" then some .notANumber
  else none

/-- An exponent at the start of a text, `0` if there is none; a letter without digits is left. -/
def exponent : List Char → Int × List Char
  | c :: rest =>
    if c = 'e' ∨ c = 'E' then
      let (negative, body) := sign rest
      match digits 10 body with
      | ([], _) => (0, c :: rest)
      | (ds, tail) => let n : Int := ofDigits 10 ds; (if negative then -n else n, tail)
    else (0, c :: rest)
  | [] => (0, [])

/-- The double nearest to the decimal fraction that a text spells. -/
def readReal (text : List CodePoint) : Except Fault Binary64 :=
  let chars := text.map CodePoint.toChar
  let body := ((chars.dropWhile isSpace).reverse.dropWhile isSpace).reverse
  let (negative, cs) := sign body
  match word? cs with
  | some .infinite => .ok (.infinity negative)
  | some .notANumber => .ok (.nan 0)
  | none =>
    let (whole, afterWhole) := digits 10 cs
    let (fraction, afterFraction) :=
      match afterWhole with
      | '.' :: rest => digits 10 rest
      | rest => ([], rest)
    let (e, tail) := exponent afterFraction
    if (whole = [] ∧ fraction = []) ∨ tail ≠ [] then .error (.notReal text)
    else .ok (.ofDecimal negative (ofDigits 10 (whole ++ fraction)) (e - fraction.length))

end Stratum.Numeral
