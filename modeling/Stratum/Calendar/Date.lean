/-!
# Dates

The days of the Gregorian calendar from the first of January of year 1 to the last of December of
year 9999. A date carries the proof that it exists, so a day that no month has cannot be built.
-/

namespace Stratum

/-- A year with a twenty-ninth of February. -/
def isLeapYear (year : Nat) : Bool := year % 4 == 0 && (year % 100 != 0 || year % 400 == 0)

/-- The number of days of a month. -/
def daysInMonth (year month : Nat) : Nat :=
  if month = 2 then (if isLeapYear year then 29 else 28)
  else if month = 4 ∨ month = 6 ∨ month = 9 ∨ month = 11 then 30
  else 31

/-- What no date has: such a year, such a month, such a day of that month, or a day after the
last. -/
inductive DateFault
  | year (year : Nat)
  | month
  | day
  | beyondLast
  deriving DecidableEq, Repr

/-- The words for a fault of a date. -/
def DateFault.message : DateFault → String
  | .year y => "year " ++ toString y ++ " is out of range"
  | .month => "month must be in 1..12"
  | .day => "day is out of range for month"
  | .beyondLast => "date value out of range"

/-- A day of the calendar. -/
structure Date where
  year : Nat
  month : Nat
  day : Nat
  year_mem : 1 ≤ year ∧ year ≤ 9999
  month_mem : 1 ≤ month ∧ month ≤ 12
  day_mem : 1 ≤ day ∧ day ≤ daysInMonth year month
  deriving DecidableEq

namespace Date

/-- The date of a year, month and day; the first part that does not fit is at fault. -/
def ofParts (year month day : Nat) : Except DateFault Date :=
  if hy : 1 ≤ year ∧ year ≤ 9999 then
    if hm : 1 ≤ month ∧ month ≤ 12 then
      if hd : 1 ≤ day ∧ day ≤ daysInMonth year month then .ok ⟨year, month, day, hy, hm, hd⟩
      else .error .day
    else .error .month
  else .error (.year year)

/-- Every month has a first day. -/
theorem one_le_daysInMonth (year month : Nat) : 1 ≤ daysInMonth year month := by
  unfold daysInMonth
  split <;> (try split) <;> omega

/-- The day after; none follows the last of December of year 9999. -/
def next? (d : Date) : Option Date :=
  if hd : d.day < daysInMonth d.year d.month then
    some { d with day := d.day + 1, day_mem := ⟨by omega, hd⟩ }
  else if hm : d.month < 12 then
    some ⟨d.year, d.month + 1, 1, d.year_mem, ⟨by omega, hm⟩,
      ⟨Nat.le_refl 1, one_le_daysInMonth _ _⟩⟩
  else if hy : d.year < 9999 then
    some ⟨d.year + 1, 1, 1, ⟨by omega, hy⟩, ⟨by omega, by omega⟩,
      ⟨Nat.le_refl 1, one_le_daysInMonth _ _⟩⟩
  else none

/-- The number of days in the years before. -/
def daysBeforeYear (year : Nat) : Nat :=
  let y := year - 1
  y * 365 + y / 4 - y / 100 + y / 400

/-- The number of days in the months before, of the same year. -/
def daysBeforeMonth (year month : Nat) : Nat :=
  (List.range (month - 1)).foldl (fun days m => days + daysInMonth year (m + 1)) 0

/-- The place of the day in the calendar, counted from one. -/
def ordinal (d : Date) : Nat := daysBeforeYear d.year + daysBeforeMonth d.year d.month + d.day

/-- A number in decimal with zeros in front, at least `width` digits long. -/
def padded (width n : Nat) : String :=
  let digits := Nat.toDigits 10 n
  String.ofList (List.replicate (width - digits.length) '0' ++ digits)

/-- Year, month and day, with hyphens between. -/
def text (d : Date) : String :=
  padded 4 d.year ++ "-" ++ padded 2 d.month ++ "-" ++ padded 2 d.day

end Date
end Stratum
