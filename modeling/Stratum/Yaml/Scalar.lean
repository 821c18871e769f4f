import Stratum.Text.Base64
import Stratum.Text.Lowercase
import Stratum.Value.Atom
import Stratum.Yaml.Fault

/-!
# The meaning of scalars

What the text of a scalar stands for under each of the tags for atoms.
-/

namespace Stratum.Yaml.Scalar

open Text (CodePoint)

/-- A fault of a numeral as a fault of a scalar. -/
def ofNumeral {α : Type} : Except Numeral.Fault α → Except ScalarFault α
  | .ok a => .ok a
  | .error fault => .error (.numeral fault)

/-- A fault of a moment as a fault of a scalar. -/
def ofMoment {α : Type} : Except MomentFault α → Except ScalarFault α
  | .ok a => .ok a
  | .error fault => .error (.moment fault)

/-- A text without its underscores. -/
def dropUnderscores (ps : List CodePoint) : List CodePoint := ps.filter (· != .char '_')

/-- An optional sign of a number: whether it is a minus, and what follows. -/
def sign : List CodePoint → Except ScalarFault (Bool × List CodePoint)
  | [] => .error .emptyNumber
  | .char '-' :: rest => .ok (true, rest)
  | .char '+' :: rest => .ok (false, rest)
  | ps => .ok (false, ps)

/-! ## Numbers -/

/-- The magnitude that a text spells to the base two, sixteen, eight, sixty or ten. -/
def magnitude (ps : List CodePoint) : Except ScalarFault Int :=
  match ps with
  | [.char '0'] => .ok 0
  | .char '0' :: .char 'b' :: rest => ofNumeral (Numeral.readInt 2 rest)
  | .char '0' :: .char 'x' :: rest => ofNumeral (Numeral.readInt 16 rest)
  | [] => .error .emptyNumber
  | .char '0' :: _ => ofNumeral (Numeral.readInt 8 ps)
  | _ =>
    if ps.contains (.char ':') then do
      let ns ← (ps.splitOn (.char ':')).mapM fun part => ofNumeral (Numeral.readInt 10 part)
      .ok (ns.foldl (fun total n => total * 60 + n) 0)
    else ofNumeral (Numeral.readInt 10 ps)

/-- The whole number of a text. -/
def int (ps : List CodePoint) : Except ScalarFault Atom := do
  let (negative, body) ← sign (dropUnderscores ps)
  let n ← magnitude body
  .ok (.int (if negative then -n else n))

/-- The sum of places to the base sixty, the lowest first. -/
def sexagesimal (total : Binary64) (base : Nat) : List Binary64 → Except ScalarFault Binary64
  | [] => .ok total
  | x :: rest =>
    match Binary64.ofInt? base with
    | none => .error .placeTooLarge
    | some b => sexagesimal (total.add (x.mul b)) (base * 60) rest

/-- The mark of what is not a number and spelled by a word of the format. -/
def plainMark : Nat := 0

/-- The double of a text. What is not a number but spelled in another way, or comes out of a sum,
gets the mark given. -/
def float (mark : Nat) (ps : List CodePoint) : Except ScalarFault Atom := do
  let (negative, body) ← sign (Text.lowerPoints (dropUnderscores ps))
  if body = Text.codePoints ".inf" then .ok (.real (.infinity negative))
  else if body = Text.codePoints ".nan" then .ok (.real (.nan plainMark))
  else
    let x ←
      if body.contains (.char ':') then do
        let xs ← (body.splitOn (.char ':')).mapM fun part => ofNumeral (Numeral.readReal part)
        sexagesimal (.zero false) 1 xs.reverse
      else ofNumeral (Numeral.readReal body)
    .ok (.real ((if negative then x.neg else x).withMark mark))

/-! ## Truth values -/

/-- The words for true. -/
def trueWords : List String := ["yes", "true", "on"]

/-- The words for false. -/
def falseWords : List String := ["no", "false", "off"]

/-- The truth value of a text, in letters of any case. -/
def bool (ps : List CodePoint) : Except ScalarFault Atom :=
  let word := Text.lowerPoints ps
  if trueWords.any fun w => word == Text.codePoints w then .ok (.bool true)
  else if falseWords.any fun w => word == Text.codePoints w then .ok (.bool false)
  else .error (.notTruth word)

/-! ## Timestamps -/

/-- The parts of a timestamp: the date, and the time with its fraction and the text behind it. -/
structure Timestamp where
  year : List Char
  month : List Char
  day : List Char
  clock : Option (List Char × List Char × List Char × List Char × List Char)

/-- Between `least` and `most` digits, as many as there are, and the text after them. -/
def digits? (least most : Nat) (cs : List Char) : Option (List Char × List Char) :=
  let ds := (cs.take most).takeWhile Char.isDigit
  if least ≤ ds.length then some (ds, cs.drop ds.length) else none

/-- The text after a character that has to come next. -/
def after? (c : Char) : List Char → Option (List Char)
  | d :: rest => if d = c then some rest else none
  | [] => none

/-- The text after what parts a date from its time: a letter, or blanks. -/
def clockStart? : List Char → Option (List Char)
  | [] => none
  | c :: rest =>
    if c = 'T' ∨ c = 't' then some rest
    else if c = ' ' ∨ c = '\t' then some (rest.dropWhile fun d => d == ' ' || d == '\t')
    else none

/-- A point with digits at the start of a text: the digits, and the text after them. -/
def fraction : List Char → List Char × List Char
  | '.' :: rest => (rest.takeWhile Char.isDigit, rest.dropWhile Char.isDigit)
  | cs => ([], cs)

/-- Whether nothing is left of a text but the end of a line. -/
def atEnd (cs : List Char) : Bool := cs == [] || cs == ['\n']

/-- The parts of a timestamp in a text. -/
def timestamp? (cs : List Char) : Option Timestamp := do
  let (year, cs) ← digits? 4 4 cs
  let (month, cs) ← digits? 1 2 (← after? '-' cs)
  let (day, cs) ← digits? 1 2 (← after? '-' cs)
  if atEnd cs then return ⟨year, month, day, none⟩
  let (hour, cs) ← digits? 1 2 (← clockStart? cs)
  let (minute, cs) ← digits? 2 2 (← after? ':' cs)
  let (second, cs) ← digits? 2 2 (← after? ':' cs)
  let (part, cs) := fraction cs
  return ⟨year, month, day, some (hour, minute, second, part, cs)⟩

/-- The number of plain digits. -/
def number (ds : List Char) : Nat := ds.foldl (fun n c => n * 10 + (c.toNat - '0'.toNat)) 0

/-- Microseconds of an offset, and whether it is a letter; none if the text is no offset. -/
def offset? (cs : List Char) : Option (Option (Bool × Nat)) := do
  if atEnd cs then return none
  match cs.dropWhile fun c => c == ' ' || c == '\t' with
  | 'Z' :: rest => if atEnd rest then return some (false, 0) else none
  | s :: rest =>
    if s ≠ '+' ∧ s ≠ '-' then none
    else
      let (hours, rest) ← digits? 1 2 rest
      let (minutes, rest) ← match after? ':' rest with
        | none => some ([], rest)
        | some rest => digits? 2 2 rest
      if atEnd rest then
        return some (s == '-', number hours * Micros.hour + number minutes * Micros.minute)
      else none
  | [] => none

/-- The offset of so many microseconds to the east or to the west. -/
def offset : Option (Bool × Nat) → Except MomentFault (Option Offset)
  | none => .ok none
  | some (west, micros) => (Offset.ofMicros (if west then -(micros : Int) else micros)).map some

/-- The date or the moment of a text. The offset is looked at before the rest. -/
def timestamp (cs : List Char) : Except ScalarFault Atom := do
  match timestamp? cs with
  | none => .error .notTimestamp
  | some t =>
    let date : Except ScalarFault Date :=
      ofMoment ((Date.ofParts (number t.year) (number t.month) (number t.day)).mapError .date)
    match t.clock with
    | none => .ok (.date (← date))
    | some (hour, minute, second, part, zone) =>
      match offset? zone with
      | none => .error .notTimestamp
      | some o =>
        let o ← ofMoment (offset o)
        .ok (.moment (← ofMoment (Moment.ofParts (← date) (number hour) (number minute)
          (number second) (Moment.fractionMicros part) o)))

end Stratum.Yaml.Scalar
