import Stratum.Calendar.Date

/-!
# Moments

A moment is a date, a time of day and, if it is known, the offset from universal time. Times are
counted in microseconds. Moments with an offset are compared by the instant they name, those without
one by their local time; between the two kinds there is no order.
-/

namespace Stratum

namespace Micros

/-- Microseconds in a second. -/
def second : Nat := 1000000

/-- Microseconds in a minute. -/
def minute : Nat := 60 * second

/-- Microseconds in an hour. -/
def hour : Nat := 60 * minute

/-- Microseconds in a day. -/
def day : Nat := 24 * hour

end Micros

/-- What no moment has. -/
inductive MomentFault
  | date (fault : DateFault)
  | hour
  | minute
  | second
  | offset (micros : Int)
  deriving DecidableEq, Repr

/-- A span of time by its days, seconds and microseconds, leaving out those that are zero. -/
def spanText (micros : Int) : String :=
  let part (name : String) (n : Int) : List String :=
    if n = 0 then [] else [name ++ "=" ++ toString n]
  let parts := part "days" (micros / (Micros.day : Int)) ++
    part "seconds" (micros % (Micros.day : Int) / (Micros.second : Int)) ++
    part "microseconds" (micros % (Micros.second : Int))
  "datetime.timedelta(" ++ (if parts = [] then "0" else ", ".intercalate parts) ++ ")"

/-- The words for a fault of a moment. -/
def MomentFault.message : MomentFault → String
  | .date fault => fault.message
  | .hour => "hour must be in 0..23"
  | .minute => "minute must be in 0..59"
  | .second => "second must be in 0..59"
  | .offset micros =>
    "offset must be a timedelta strictly between -timedelta(hours=24) and timedelta(hours=24), not "
      ++ spanText micros ++ "."

/-- A distance from universal time, eastward, shorter than a day. -/
structure Offset where
  micros : Int
  bounds : -(Micros.day : Int) < micros ∧ micros < Micros.day
  deriving DecidableEq

/-- The offset of so many microseconds. -/
def Offset.ofMicros (micros : Int) : Except MomentFault Offset :=
  if h : -(Micros.day : Int) < micros ∧ micros < Micros.day then .ok ⟨micros, h⟩
  else .error (.offset micros)

/-- No distance. -/
def Offset.zero : Offset := ⟨0, by decide⟩

/-- A date, the microseconds of the day gone by, and an offset. -/
structure Moment where
  date : Date
  micros : Nat
  micros_lt : micros < Micros.day
  offset : Option Offset
  deriving DecidableEq

namespace Moment

/-- The moment of a date and a time given in hours, minutes, seconds and microseconds. -/
def ofParts (date : Date) (h m s us : Nat) (offset : Option Offset) : Except MomentFault Moment :=
  if hh : h ≤ 23 then
    if hm : m ≤ 59 then
      if hs : s ≤ 59 then
        if hu : us < 1000000 then
          .ok ⟨date, h * Micros.hour + m * Micros.minute + s * Micros.second + us,
            by simp only [Micros.day, Micros.hour, Micros.minute, Micros.second]; omega, offset⟩
        else .error .second
      else .error .second
    else .error .minute
  else .error .hour

/-- The first moment of a date. -/
def midnight (date : Date) (offset : Option Offset) : Moment := ⟨date, 0, by decide, offset⟩

/-- The first midnight after a moment, at the same offset; none follows on the last day. -/
def nextMidnight? (now : Moment) : Option Moment :=
  now.date.next?.map (midnight · now.offset)

/-- Microseconds from the start of the calendar to the instant; local ones if no offset is known. -/
def instant (t : Moment) : Int :=
  (t.date.ordinal * Micros.day + t.micros : Nat) - (t.offset.map Offset.micros).getD 0

/-- Two moments have an order if both know their offset or neither does. -/
def comparable (s t : Moment) : Bool := s.offset.isSome == t.offset.isSome

/-- Whether the first of two comparable moments is not the later one. -/
def le (s t : Moment) : Bool := s.instant ≤ t.instant

/-! ## Text -/

/-- Hours, minutes and seconds of a time of day; the fraction only if there is one. -/
def clockText (micros : Nat) : String :=
  let s := micros / Micros.second
  let us := micros % Micros.second
  Date.padded 2 (s / 3600) ++ ":" ++ Date.padded 2 (s / 60 % 60) ++ ":" ++ Date.padded 2 (s % 60) ++
    (if us = 0 then "" else "." ++ Date.padded 6 us)

/-- An offset by its sign, hours and minutes; seconds and the fraction only if there are any. -/
def offsetText (o : Offset) : String :=
  let n := o.micros.natAbs
  (if o.micros < 0 then "-" else "+") ++
    if n % Micros.minute = 0 then
      Date.padded 2 (n / Micros.hour) ++ ":" ++ Date.padded 2 (n / Micros.minute % 60)
    else clockText n

/-- Date and time with the given separator, and the offset if it is known. -/
def text (separator : String) (t : Moment) : String :=
  t.date.text ++ separator ++ clockText t.micros ++ (t.offset.map offsetText).getD ""

/-- The digits of a fraction of a second in microseconds, further digits dropped. -/
def fractionMicros (digits : List Char) : Nat :=
  ((digits ++ List.replicate 6 '0').take 6).foldl (fun n c => n * 10 + (c.toNat - '0'.toNat)) 0

end Moment
end Stratum
