import Stratum.Calendar.Date

/-!
# Weeks

Weeks start on Monday, and the first week of a year is the one that holds its first Thursday. So a
year has fifty-two weeks or fifty-three, and its first and last days may belong to a week of another
year.
-/

namespace Stratum.Date

/-- The place in the calendar, counted from one, of the first day of a year. -/
def firstOrdinal (year : Nat) : Nat := daysBeforeYear year + 1

/-- The days gone by since Monday on the day of a place in the calendar, which starts on a
Monday. -/
def weekday (ordinal : Nat) : Nat := (ordinal + 6) % 7

/-- The place in the calendar of the Monday of a year's first week. -/
def firstMonday (year : Nat) : Nat :=
  let first := firstOrdinal year
  let monday := first - weekday first
  if 3 < weekday first then monday + 7 else monday

/-- The number of weeks of a year: one more if a Thursday is its first day or its last. -/
def weeksInYear (year : Nat) : Nat :=
  let first := weekday (firstOrdinal year)
  if first = 3 ∨ (first = 2 ∧ isLeapYear year) then 53 else 52

/-- The month and the day in it of a day that is counted from the start of a month. -/
def monthAndDay (year : Nat) : (fuel : Nat) → (month day : Nat) → Nat × Nat
  | 0, month, day => (month, day)
  | fuel + 1, month, day =>
    if day ≤ daysInMonth year month then (month, day)
    else monthAndDay year fuel (month + 1) (day - daysInMonth year month)

/-- The date of a place in the calendar that is in a year or in one of its neighbours. -/
def ofOrdinalNear (year ordinal : Nat) : Except DateFault Date :=
  let y :=
    if ordinal < firstOrdinal year then year - 1
    else if firstOrdinal (year + 1) ≤ ordinal then year + 1
    else year
  let (month, day) := monthAndDay y 11 1 (ordinal + 1 - firstOrdinal y)
  ofParts y month day

/-- The date of a year, a week and a day of the week, both counted from one; none if the year has no
such week or the week no such day. There is no year zero to count weeks in. -/
def ofWeek? (year week day : Nat) : Option (Except DateFault Date) :=
  if week < 1 ∨ weeksInYear year < week ∨ day < 1 ∨ 7 < day then none
  else if year = 0 then some (.error .month)
  else some (ofOrdinalNear year (firstMonday year + 7 * (week - 1) + (day - 1)))

end Stratum.Date
