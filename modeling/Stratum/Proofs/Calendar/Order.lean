import Stratum.Proofs.Calendar.Midnight

/-!
# The order of moments

Days follow each other in the count of days as they do in the calendar, by year, month and day
(`Date.ordinal_lt_iff`), so moments of one offset are in the order of their dates and times of day
(`Moment.upTo_iff_of_offset_eq`). In that order the next midnight is the least of the midnights that
come later, at most a day away, and a later moment has a later one or the same
(`Moment.next_midnight_least`).
-/

namespace Stratum

namespace Date

variable {d e : Date} {year : Nat}

/-- A date is earlier in the calendar than another one: in an earlier year, or in an earlier month
of the same year, or on an earlier day of the same month. -/
def Precedes (d e : Date) : Prop :=
  d.year < e.year ∨ d.year = e.year ∧ (d.month < e.month ∨ d.month = e.month ∧ d.day < e.day)

instance (d e : Date) : Decidable (d.Precedes e) := inferInstanceAs (Decidable (_ ∨ _))

/-- Of two dates one is earlier, or they are the same. -/
theorem precedes_or_eq_or_precedes (d e : Date) : d.Precedes e ∨ d = e ∨ e.Precedes d := by
  obtain ⟨y, m, n, _, _, _⟩ := d
  obtain ⟨y', m', n', _, _, _⟩ := e
  simp only [Precedes, mk.injEq]
  omega

/-- No date is later than the last day. -/
theorem IsLast.not_precedes (h : d.IsLast) : ¬d.Precedes e := by
  obtain ⟨hyear, hmonth, hday⟩ := h
  have hdays : e.year = 9999 → e.month = 12 → e.day ≤ 31 := fun hy hm => by
    have hle := e.day_mem.2
    rwa [hy, hm] at hle
  have hy := e.year_mem
  have hm := e.month_mem
  simp only [Precedes, hyear, hmonth, hday]
  omega

/-! ## In the count of days -/

/-- Later months have more days before them. -/
theorem daysBeforeMonth_le {m n : Nat} (hm : 1 ≤ m) (h : m ≤ n) :
    daysBeforeMonth year m ≤ daysBeforeMonth year n := by
  induction h with
  | refl => exact Nat.le_refl _
  | step hmn ih =>
    rw [daysBeforeMonth_succ year (Nat.le_trans hm hmn)]
    exact Nat.le_add_right_of_le ih

/-- Later years have more days before them. -/
theorem daysBeforeYear_le {m n : Nat} (hm : 1 ≤ m) (h : m ≤ n) :
    daysBeforeYear m ≤ daysBeforeYear n := by
  induction h with
  | refl => exact Nat.le_refl _
  | step hmn ih =>
    rw [daysBeforeYear_succ (Nat.le_trans hm hmn)]
    exact Nat.le_add_right_of_le ih

/-- A date is counted before the end of its month. -/
theorem ordinal_le_month (d : Date) :
    d.ordinal ≤ daysBeforeYear d.year + daysBeforeMonth d.year (d.month + 1) := by
  have hday := d.day_mem.2
  rw [daysBeforeMonth_succ d.year d.month_mem.1, ordinal]
  omega

/-- A date is counted before the end of its year. -/
theorem ordinal_le_year (d : Date) : d.ordinal ≤ daysBeforeYear (d.year + 1) :=
  calc d.ordinal ≤ daysBeforeYear d.year + daysBeforeMonth d.year (d.month + 1) :=
        d.ordinal_le_month
    _ ≤ daysBeforeYear d.year + daysBeforeMonth d.year 13 :=
        Nat.add_le_add_left (daysBeforeMonth_le (by omega) (by have := d.month_mem; omega)) _
    _ = daysBeforeYear (d.year + 1) := (daysBeforeYear_succ d.year_mem.1).symm

/-- A date is counted after the start of its month. -/
theorem month_lt_ordinal (d : Date) :
    daysBeforeYear d.year + daysBeforeMonth d.year d.month < d.ordinal :=
  Nat.lt_add_of_pos_right d.day_mem.1

/-- An earlier date comes earlier in the count of days. -/
theorem Precedes.ordinal_lt (h : d.Precedes e) : d.ordinal < e.ordinal := by
  rcases h with hyear | ⟨hyear, hmonth | ⟨hmonth, hday⟩⟩
  · calc d.ordinal ≤ daysBeforeYear (d.year + 1) := d.ordinal_le_year
      _ ≤ daysBeforeYear e.year := daysBeforeYear_le (by omega) hyear
      _ ≤ daysBeforeYear e.year + daysBeforeMonth e.year e.month := Nat.le_add_right _ _
      _ < e.ordinal := e.month_lt_ordinal
  · calc d.ordinal ≤ daysBeforeYear d.year + daysBeforeMonth d.year (d.month + 1) :=
          d.ordinal_le_month
      _ ≤ daysBeforeYear e.year + daysBeforeMonth e.year e.month := by
          rw [hyear]
          exact Nat.add_le_add_left (daysBeforeMonth_le (by omega) hmonth) _
      _ < e.ordinal := e.month_lt_ordinal
  · rw [ordinal, ordinal, hyear, hmonth]
    exact Nat.add_lt_add_left hday _

/-- The count of days is in the order of the calendar. -/
theorem ordinal_lt_iff : d.ordinal < e.ordinal ↔ d.Precedes e := by
  refine ⟨fun h => ?_, Precedes.ordinal_lt⟩
  rcases precedes_or_eq_or_precedes d e with hlt | rfl | hgt
  · exact hlt
  · exact absurd h (Nat.lt_irrefl _)
  · exact absurd (hgt.ordinal_lt) (Nat.lt_asymm h)

/-- Each day has its own place in the count of days. -/
theorem ordinal_inj : d.ordinal = e.ordinal ↔ d = e := by
  refine ⟨fun h => ?_, congrArg ordinal⟩
  rcases precedes_or_eq_or_precedes d e with hlt | heq | hgt
  · exact absurd h (Nat.ne_of_lt hlt.ordinal_lt)
  · exact heq
  · exact absurd h.symm (Nat.ne_of_lt hgt.ordinal_lt)

end Date

namespace Moment

variable {s t : Moment}

/-- Moments of one offset are in the order of their dates, and those of one day in the order of
their times of day. -/
theorem upTo_iff_of_offset_eq (ho : s.offset = t.offset) :
    s.UpTo t ↔ s.date.Precedes t.date ∨ s.date = t.date ∧ s.micros ≤ t.micros := by
  have hs := s.micros_lt
  have ht := t.micros_lt
  rw [upTo_iff, instant, instant, ho, ← Date.ordinal_lt_iff, ← Date.ordinal_inj]
  -- No time of day is as long as a day, so the days decide where they differ.
  simp only [true_and, Micros.day, Micros.hour, Micros.minute, Micros.second] at *
  omega

/-- What is not later than a moment of its offset that has a next midnight has one too. -/
theorem UpTo.not_isLast (h : s.UpTo t) (ho : s.offset = t.offset) (ht : ¬t.date.IsLast) :
    ¬s.date.IsLast := by
  intro hs
  rcases (upTo_iff_of_offset_eq ho).mp h with hlt | ⟨heq, -⟩
  · exact hs.not_precedes hlt
  · exact ht (heq ▸ hs)

/-- The first midnight after a moment is at most a day away. -/
theorem firstMidnight_le_add (t : Moment) : t.firstMidnight ≤ t.instant + Micros.day := by
  unfold firstMidnight instant
  rw [Nat.succ_mul]
  omega

/-- Of two moments of one offset the later one has the later first midnight, or both have the
same. -/
theorem UpTo.firstMidnight_le (h : s.UpTo t) (ho : s.offset = t.offset) :
    s.firstMidnight ≤ t.firstMidnight := by
  have hdays : s.date.ordinal ≤ t.date.ordinal := by
    rcases (upTo_iff_of_offset_eq ho).mp h with hlt | ⟨heq, -⟩
    · exact Nat.le_of_lt hlt.ordinal_lt
    · exact Nat.le_of_eq (congrArg Date.ordinal heq)
  have := Nat.mul_le_mul_right Micros.day (Nat.add_le_add_right hdays 1)
  unfold firstMidnight
  rw [ho]
  omega

/-- The next midnight is the least later one. There is none on the last day of the calendar and on
no other. On any other day it is a midnight at the offset of the moment, later than the moment by a
day at most, with no midnight of that offset between. For a later moment of the same offset it is
not an earlier one. -/
theorem next_midnight_least (now : Moment) :
    (now.nextMidnight? = none ↔ now.date.IsLast) ∧
    (¬now.date.IsLast → ∃ m, now.nextMidnight? = some m ∧ m.IsFirstMidnightAfter now ∧
      m.instant ≤ now.instant + Micros.day) ∧
    ∀ later : Moment, now.offset = later.offset → now.UpTo later → ¬later.date.IsLast →
      ∃ m n, now.nextMidnight? = some m ∧ later.nextMidnight? = some n ∧ m.UpTo n := by
  refine ⟨now.nextMidnight?_eq_none_iff, fun hlast => ?_, fun later ho hle hlast => ?_⟩
  · obtain ⟨m, hm⟩ := exists_nextMidnight? hlast
    refine ⟨m, hm, isFirstMidnightAfter_of_nextMidnight? hm, ?_⟩
    rw [(instant_nextMidnight? hm).1]
    exact now.firstMidnight_le_add
  · obtain ⟨m, hm⟩ := exists_nextMidnight? (hle.not_isLast ho hlast)
    obtain ⟨n, hn⟩ := exists_nextMidnight? hlast
    obtain ⟨hminstant, hmoffset⟩ := instant_nextMidnight? hm
    obtain ⟨hninstant, hnoffset⟩ := instant_nextMidnight? hn
    refine ⟨m, n, hm, hn, upTo_iff.mpr ⟨by rw [hmoffset, hnoffset, ho], ?_⟩⟩
    rw [hminstant, hninstant]
    exact hle.firstMidnight_le ho

end Moment

/-! A February without a twenty-ninth day in a year that four divides, five hours west. -/
namespace ShortFebruary

/-- Five hours west. -/
def west : Option Offset := some ⟨-5 * (Micros.hour : Int), by decide⟩

/-- The last microsecond of February 1900. -/
def eve : Moment :=
  ⟨⟨1900, 2, 28, by decide, by decide, by decide⟩, Micros.day - 1, by decide, west⟩

/-- The first midnight of March. -/
def first : Moment := .midnight ⟨1900, 3, 1, by decide, by decide, by decide⟩ west

/-- The second midnight of March. -/
def second : Moment := .midnight ⟨1900, 3, 2, by decide, by decide, by decide⟩ west

/-- March begins with the next midnight, which has the midnight after it for its own. -/
theorem march_follows :
    (¬eve.date.IsLast ∧ eve.nextMidnight? = some first ∧ first.IsFirstMidnightAfter eve ∧
      first.instant ≤ eve.instant + Micros.day) ∧
    eve.UpTo first ∧ ¬first.date.IsLast ∧ first.nextMidnight? = some second ∧
      first.UpTo second := by
  have heve : ¬eve.date.IsLast := by decide
  have hfirst : ¬first.date.IsLast := by decide
  have hupTo : eve.UpTo first := by decide
  have heveNext : eve.nextMidnight? = some first := rfl
  have hfirstNext : first.nextMidnight? = some second := rfl
  obtain ⟨m, hm, hleast, hle⟩ := (Moment.next_midnight_least eve).2.1 heve
  obtain ⟨m', n, hm', hn, hmn⟩ := (Moment.next_midnight_least eve).2.2 first rfl hupTo hfirst
  obtain rfl := Option.some.inj (heveNext.symm.trans hm)
  obtain rfl := Option.some.inj (heveNext.symm.trans hm')
  obtain rfl := Option.some.inj (hfirstNext.symm.trans hn)
  exact ⟨⟨heve, heveNext, hleast, hle⟩, hupTo, hfirst, hfirstNext, hmn⟩

end ShortFebruary
end Stratum
