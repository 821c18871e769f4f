import Stratum.Calendar.Moment
import Stratum.Calendar.Week
import Stratum.Text.Quoted
import Stratum.Text.Utf8

/-!
# Dates and moments as texts

Reading of the texts that ISO 8601 has for dates and moments. A date is a year with a month and a
day, or with a week and perhaps a day of the week; hyphens stand between all of its parts or between
none. A moment is a date, then one character of any kind, a clock and perhaps an offset. The form
decides first, and what no calendar or clock has is told apart from a text of the wrong form.

A text is read by its bytes, and a zero byte counts as the end of a clock.
-/

namespace Stratum.IsoText

/-- Why a text is no date or no moment: it has another form, or nothing is called by it. -/
inductive Fault
  | malformed (text : String)
  | moment (fault : MomentFault)
  deriving DecidableEq, Repr

/-- The words for a fault. -/
def Fault.message : Fault → String
  | .malformed text => "Invalid isoformat string: " ++ Text.quote text
  | .moment fault => fault.message

/-- The bytes of a text, each as a character. -/
def bytesOf (s : String) : List Char :=
  (Text.Utf8.encode s.toList).map fun b => Char.ofNat b.toNat

/-- A number of exactly so many decimal digits, and the text after it. -/
def number? : (count : Nat) → List Char → Option (Nat × List Char)
  | 0, cs => some (0, cs)
  | n + 1, c :: rest =>
    if c.isDigit then
      (number? n rest).map fun (m, tail) => ((c.toNat - '0'.toNat) * Nat.pow 10 n + m, tail)
    else none
  | _ + 1, [] => none

/-! ## Dates -/

/-- The text after a hyphen, if hyphens are called for. -/
def dropHyphen? (hyphens : Bool) : List Char → Option (List Char)
  | '-' :: rest => some (if hyphens then rest else '-' :: rest)
  | cs => if hyphens then none else some cs

/-- The date at the start of a text, of which `length` bytes may belong to it; without a text of the
right form there is none. A week without a day stands for its Monday. -/
def date? (length : Nat) (cs : List Char) : Option (Except DateFault Date) := do
  let (year, cs) ← number? 4 cs
  let hyphens := cs.head? == some '-'
  match ← dropHyphen? hyphens cs with
  | 'W' :: cs =>
    let (week, cs) ← number? 2 cs
    let size := if hyphens then 8 else 7
    if size < length then
      let (day, _) ← number? 1 (← dropHyphen? hyphens cs)
      Date.ofWeek? year week day
    else Date.ofWeek? year week 1
  | cs =>
    let (month, cs) ← number? 2 cs
    let (day, _) ← number? 2 (← dropHyphen? hyphens cs)
    some (Date.ofParts year month day)

/-- How many bytes the date at the start of a moment has. Behind a week a hyphen comes before a day,
unless two digits follow, which are a clock's. Digits alone behind a week are a day and a clock if
their number is even. -/
def dateLength (cs : List Char) : Nat :=
  if cs.length = 7 then 7
  else match cs.drop 4 with
    | '-' :: 'W' :: _ => if cs[8]? = some '-' ∧ !cs[10]?.any Char.isDigit then 10 else 8
    | '-' :: _ => 10
    | 'W' :: _ =>
      let stop := 7 + ((cs.drop 7).takeWhile Char.isDigit).length
      if stop < 9 then stop
      else if stop % 2 = 0 then 7
      else 8
    | _ => 8

/-! ## Clocks -/

/-- Hours, minutes, seconds and microseconds. -/
structure Clock where
  hours : Nat
  minutes : Nat
  seconds : Nat
  micros : Nat

/-- What comes behind the two-digit parts of a clock: nothing more, cleanly or not, or a
fraction. -/
inductive Tail
  | over (clean : Bool)
  | fraction (cs : List Char)

/-- The byte that counts as the end of a text. -/
def endMark : Char := '\x00'

/-- The parts of a clock, of which `left` may come, and what follows them; `next` is the byte behind
the text. Whether there are colons between the parts is known once the first one has been read. A
single byte behind the last part is passed over, but not cleanly. -/
def parts? (next : Char) :
    (left : Nat) → (colons : Option Bool) → List Char → Option (List Nat × Tail)
  | 0, _, cs => some ([], .fraction cs)
  | left + 1, colons, cs => do
    let (n, cs) ← number? 2 cs
    match cs with
    | [] => some ([n], .over (next == endMark))
    | [c] => some ([n], .over (c == endMark))
    | c :: rest =>
      let colons := colons.getD (c == ':')
      if colons && c == ':' then
        let (ns, tail) ← parts? next left colons rest
        some (n :: ns, tail)
      else if c == '.' || c == ',' then some ([n], .fraction rest)
      else if colons then none
      else
        let (ns, tail) ← parts? next left colons cs
        some (n :: ns, tail)

/-- The microseconds of a fraction of a second, further digits dropped, and whether it ends the
text. -/
def fraction? (next : Char) (cs : List Char) : Option (Nat × Bool) := do
  let count := min 6 cs.length
  let (n, rest) ← number? count cs
  let behind := (rest.dropWhile Char.isDigit).head?.getD next
  some (n * Nat.pow 10 (6 - count), behind == endMark)

/-- The clock that a text is, and whether the text ends with it. -/
def clock? (next : Char) (cs : List Char) : Option (Clock × Bool) := do
  let (ns, tail) ← parts? next 3 none cs
  let (micros, clean) ← match tail with
    | .over clean => some (0, clean)
    | .fraction rest => fraction? next rest
  some (⟨ns[0]?.getD 0, ns[1]?.getD 0, ns[2]?.getD 0, micros⟩, clean)

/-- A byte that starts an offset. -/
def startsOffset (c : Char) : Bool := c == '+' || c == '-' || c == 'Z'

/-- The microseconds of an offset without its sign. Less than a second does not count alone. -/
def Clock.span (c : Clock) : Nat :=
  let seconds := c.hours * 3600 + c.minutes * 60 + c.seconds
  if seconds = 0 then 0 else seconds * Micros.second + c.micros

/-- The clock and the microseconds of the offset in a text. Only before an offset may a clock be
followed by something else. -/
def clockAndOffset? (cs : List Char) : Option (Clock × Option Int) := do
  let front := cs.takeWhile (!startsOffset ·)
  let zone := cs.drop front.length
  let (clock, clean) ← clock? (zone.head?.getD endMark) front
  match zone with
  | [] => if clean then some (clock, none) else none
  | 'Z' :: rest => if (rest.head?.getD endMark) == endMark then some (clock, some 0) else none
  | sign :: rest =>
    let (offset, clean) ← clock? endMark rest
    let micros : Int := offset.span
    if clean then some (clock, some (if sign == '-' then -micros else micros)) else none

/-! ## Whole texts -/

/-- The text without its first character, which may have several bytes. -/
def dropSeparator : List Char → List Char
  | [] => []
  | c :: rest =>
    let n := c.toNat
    if n < 0x80 then rest
    else if n / 16 = 0xe then rest.drop 2
    else if n / 16 = 0xf then rest.drop 3
    else rest.drop 1

/-- The date that a text stands for. -/
def date (s : String) : Except Fault Date :=
  let cs := bytesOf s
  let found := if [7, 8, 10].contains cs.length then date? cs.length cs else none
  match found with
  | none => .error (.malformed s)
  | some d => d.mapError fun fault => .moment (.date fault)

/-- The moment that a text stands for; without a clock it is a midnight. -/
def moment (s : String) : Except Fault Moment :=
  let cs := bytesOf s
  let length := dateLength cs
  let rest := cs.drop length
  let clock := if rest.isEmpty then some (⟨0, 0, 0, 0⟩, none)
    else clockAndOffset? (dropSeparator rest)
  match date? length cs, clock with
  | some date, some (clock, offset) => do
    let offset ← (offset.mapM Offset.ofMicros).mapError .moment
    let date ← date.mapError fun fault => .moment (.date fault)
    (Moment.ofParts date clock.hours clock.minutes clock.seconds clock.micros offset).mapError
      .moment
  | _, _ => .error (.malformed s)

end Stratum.IsoText
