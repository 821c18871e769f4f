import Mathlib.Tactic.ByContra
import Mathlib.Tactic.SplitIfs
import Stratum.Calendar.Moment

/-!
# The first midnight after a moment

The day after a date is the next one in the count of days, over the ends of months and years
(`Date.ordinal_next?`). So the midnight that `Moment.nextMidnight?` gives is the first one of its
offset that comes later: no midnight lies between (`Moment.firstMidnight_le`). What comes before
what is told for moments of one kind only, those that know their offset or those that do not.
-/

namespace Stratum

namespace Date

/-- The last day of the calendar. -/
def IsLast (d : Date) : Prop := d.year = 9999 ∧ d.month = 12 ∧ d.day = 31

instance (d : Date) : Decidable d.IsLast := inferInstanceAs (Decidable (_ ∧ _ ∧ _))

/-- No day follows exactly the last one. -/
theorem next?_eq_none_iff (d : Date) : d.next? = none ↔ d.IsLast := by
  obtain ⟨hy1, hy2⟩ := d.year_mem
  obtain ⟨hm1, hm2⟩ := d.month_mem
  obtain ⟨hd1, hd2⟩ := d.day_mem
  have hdec : d.month = 12 → daysInMonth d.year d.month = 31 := fun h => by
    rw [h]
    rfl
  unfold next? IsLast
  split_ifs with hd hm hy
  · simp only [false_iff]
    omega
  · simp only [false_iff]
    omega
  · simp only [false_iff]
    omega
  · have h12 : d.month = 12 := by omega
    have := hdec h12
    exact ⟨fun _ => ⟨by omega, h12, by omega⟩, fun _ => rfl⟩

/-- The days before a month are those before the month before it, and that month's own. -/
theorem daysBeforeMonth_succ (year : Nat) {month : Nat} (h : 1 ≤ month) :
    daysBeforeMonth year (month + 1) = daysBeforeMonth year month + daysInMonth year month := by
  obtain ⟨m, rfl⟩ : ∃ m, month = m + 1 := ⟨month - 1, by omega⟩
  simp [daysBeforeMonth, List.range_succ]

/-- The twelve months of a year have 365 days, or 366 in a leap year. -/
theorem daysBeforeMonth_thirteen (year : Nat) :
    daysBeforeMonth year 13 = if isLeapYear year then 366 else 365 := by
  cases h : isLeapYear year <;> simp [daysBeforeMonth, daysInMonth, List.range_succ, h]

/-- The days before a year are those before the year before it, and that year's own. -/
theorem daysBeforeYear_succ {year : Nat} (h : 1 ≤ year) :
    daysBeforeYear (year + 1) = daysBeforeYear year + daysBeforeMonth year 13 := by
  obtain ⟨y, rfl⟩ : ∃ y, year = y + 1 := ⟨year - 1, by omega⟩
  rw [daysBeforeMonth_thirteen]
  -- Each quotient grows by one in the years that its divisor divides.
  have h4 : (y + 1) / 4 = _ := Nat.succ_div
  have h100 : (y + 1) / 100 = _ := Nat.succ_div
  have h400 : (y + 1) / 400 = _ := Nat.succ_div
  have hle : y / 100 ≤ y / 4 := Nat.div_le_div_left (by decide) (by decide)
  simp only [Nat.dvd_iff_mod_eq_zero] at h4 h100 h400
  simp only [daysBeforeYear, isLeapYear, Nat.add_sub_cancel, Bool.and_eq_true, Bool.or_eq_true,
    beq_iff_eq, bne_iff_ne, h4, h100, h400]
  generalize y / 4 = q4 at *
  generalize y / 100 = q100 at *
  generalize y / 400 = q400 at *
  clear h4 h100 h400
  split_ifs <;> omega

/-- The day after a date is the next one in the count of days. -/
theorem ordinal_next? {d e : Date} (h : d.next? = some e) : e.ordinal = d.ordinal + 1 := by
  obtain ⟨hm1, hm2⟩ := d.month_mem
  obtain ⟨hd1, hd2⟩ := d.day_mem
  unfold next? at h
  split_ifs at h with hd hm hy <;> obtain rfl := Option.some.inj h
  · simp only [ordinal]
    omega
  · -- The first of the next month: the month that ends is full.
    simp only [ordinal, daysBeforeMonth_succ d.year hm1]
    omega
  · -- New year's day: December ends, and with it the year.
    have h12 : d.month = 12 := by omega
    have hdec : daysBeforeMonth d.year 13 = _ :=
      daysBeforeMonth_succ d.year (by decide : 1 ≤ 12)
    have h1 : daysBeforeMonth (d.year + 1) 1 = 0 := rfl
    rw [h12] at hd2 hd
    simp only [ordinal, daysBeforeYear_succ d.year_mem.1, h12]
    omega

end Date

namespace Moment

/-- The instant of the first midnight after a moment, at its offset. -/
def firstMidnight (t : Moment) : Int :=
  ((t.date.ordinal + 1) * Micros.day : Nat) - (t.offset.map Offset.micros).getD 0

/-- The first midnight comes later than the moment. -/
theorem instant_lt_firstMidnight (t : Moment) : t.instant < t.firstMidnight := by
  have := t.micros_lt
  unfold instant firstMidnight
  rw [Nat.succ_mul]
  omega

/-- No midnight of the same offset lies between a moment and its first midnight. -/
theorem firstMidnight_le {t m : Moment} (hm : m.micros = 0) (ho : m.offset = t.offset)
    (h : t.instant < m.instant) : t.firstMidnight ≤ m.instant := by
  unfold instant at h ⊢
  unfold firstMidnight
  rw [hm, ho] at h
  rw [hm, ho]
  -- The later midnight belongs to a later day, so at least one day lies between the two dates.
  have hlt : t.date.ordinal < m.date.ordinal := by
    by_contra hge
    have := Nat.mul_le_mul_right Micros.day (Nat.le_of_not_lt hge)
    omega
  have := Nat.mul_le_mul_right Micros.day (Nat.add_one_le_iff.mpr hlt)
  omega

/-- There is a next midnight exactly if the day is not the last one. -/
theorem nextMidnight?_eq_none_iff (t : Moment) : t.nextMidnight? = none ↔ t.date.IsLast := by
  rw [← Date.next?_eq_none_iff]
  exact Option.map_eq_none_iff

/-- A day that is not the last one has a next midnight. -/
theorem exists_nextMidnight? {t : Moment} (h : ¬ t.date.IsLast) :
    ∃ m, t.nextMidnight? = some m :=
  Option.ne_none_iff_exists'.mp (mt t.nextMidnight?_eq_none_iff.mp h)

/-- The next midnight stands at the first midnight's instant and at the moment's offset. -/
theorem instant_nextMidnight? {t m : Moment} (h : t.nextMidnight? = some m) :
    m.instant = t.firstMidnight ∧ m.offset = t.offset := by
  unfold nextMidnight? at h
  obtain ⟨d, hd, rfl⟩ := Option.map_eq_some_iff.mp h
  have ho := Date.ordinal_next? hd
  refine ⟨?_, rfl⟩
  simp [instant, firstMidnight, midnight, ho]

/-! ## Before and after -/

/-- The first moment is not later than the second one. -/
def UpTo (s t : Moment) : Prop := s.comparable t = true ∧ s.le t = true

/-- The first moment is earlier than the second one. -/
def Before (s t : Moment) : Prop := s.comparable t = true ∧ t.le s = false

instance (s t : Moment) : Decidable (s.UpTo t) := inferInstanceAs (Decidable (_ ∧ _))

instance (s t : Moment) : Decidable (s.Before t) := inferInstanceAs (Decidable (_ ∧ _))

/-- Moments have an order if both have an offset or neither has. -/
theorem comparable_iff {s t : Moment} :
    s.comparable t = true ↔ s.offset.isSome = t.offset.isSome := by
  unfold comparable
  exact beq_iff_eq

/-- Not to be later is not to have a greater instant. -/
theorem upTo_iff {s t : Moment} :
    s.UpTo t ↔ s.offset.isSome = t.offset.isSome ∧ s.instant ≤ t.instant := by
  unfold UpTo le
  rw [comparable_iff, decide_eq_true_iff]

/-- To be earlier is to have a lesser instant. -/
theorem before_iff {s t : Moment} :
    s.Before t ↔ s.offset.isSome = t.offset.isSome ∧ s.instant < t.instant := by
  unfold Before le
  rw [comparable_iff, decide_eq_false_iff_not, Int.not_le]

/-- A moment is not later than itself. -/
theorem UpTo.refl (t : Moment) : t.UpTo t := upTo_iff.mpr ⟨rfl, Int.le_refl _⟩

/-- Of two moments of one kind the second is not the earlier one, or it is. -/
theorem upTo_or_before {s t : Moment} (h : s.offset.isSome = t.offset.isSome) :
    s.UpTo t ∨ t.Before s := by
  rw [upTo_iff, before_iff]
  rcases Int.lt_or_le t.instant s.instant with hlt | hle
  · exact .inr ⟨h.symm, hlt⟩
  · exact .inl ⟨h, hle⟩

/-- A moment that is not later than one that is not later than a third is not later than that. -/
theorem UpTo.trans {s t u : Moment} (h : s.UpTo t) (h' : t.UpTo u) : s.UpTo u := by
  rw [upTo_iff] at *
  exact ⟨h.1.trans h'.1, Int.le_trans h.2 h'.2⟩

/-- A moment that is not later than one before a third is before that. -/
theorem UpTo.trans_before {s t u : Moment} (h : s.UpTo t) (h' : t.Before u) : s.Before u := by
  rw [upTo_iff] at h
  rw [before_iff] at *
  exact ⟨h.1.trans h'.1, Int.lt_of_le_of_lt h.2 h'.2⟩

/-- A moment before one that is not later than a third is before that. -/
theorem Before.trans_upTo {s t u : Moment} (h : s.Before t) (h' : t.UpTo u) : s.Before u := by
  rw [upTo_iff] at h'
  rw [before_iff] at *
  exact ⟨h.1.trans h'.1, Int.lt_of_lt_of_le h.2 h'.2⟩

/-- What is before is not later. -/
theorem Before.upTo {s t : Moment} (h : s.Before t) : s.UpTo t := by
  rw [before_iff] at h
  exact upTo_iff.mpr ⟨h.1, Int.le_of_lt h.2⟩

/-- What is before is not after. -/
theorem Before.not_upTo {s t : Moment} (h : s.Before t) : ¬t.UpTo s := by
  rw [before_iff] at h
  rw [upTo_iff]
  exact fun h' => absurd h'.2 (Int.not_le.mpr h.2)

/-- A moment is a midnight, at the offset of another one and after it, and there is none between. -/
structure IsFirstMidnightAfter (m t : Moment) : Prop where
  /-- Nothing of its day has gone by. -/
  micros : m.micros = 0
  /-- It is told at the offset of the other moment. -/
  offset : m.offset = t.offset
  /-- It comes after the other moment. -/
  before : t.Before m
  /-- No midnight of the offset that comes after the other moment is earlier. -/
  first : ∀ n : Moment, n.micros = 0 → n.offset = t.offset → t.Before n → m.UpTo n

/-- The next midnight is the first one after a moment. -/
theorem isFirstMidnightAfter_of_nextMidnight? {t m : Moment} (h : t.nextMidnight? = some m) :
    m.IsFirstMidnightAfter t := by
  obtain ⟨hinstant, hoffset⟩ := instant_nextMidnight? h
  have hlt := t.instant_lt_firstMidnight
  refine ⟨?_, hoffset, before_iff.mpr ⟨by rw [hoffset], by omega⟩, ?_⟩
  · obtain ⟨d, -, rfl⟩ := Option.map_eq_some_iff.mp h
    rfl
  · intro n hn ho hbefore
    have hle := firstMidnight_le hn ho (before_iff.mp hbefore).2
    exact upTo_iff.mpr ⟨by rw [hoffset, ho], by omega⟩

/-- A midnight after a moment comes after all that its day holds. -/
theorem Before.not_before_of_date_eq {s t m : Moment} (h : s.Before m) (hm : m.micros = 0)
    (ho : m.offset = s.offset) (hdate : t.date = s.date) (hoffset : t.offset = s.offset) :
    ¬m.Before t := by
  have hle := firstMidnight_le hm ho (before_iff.mp h).2
  have hlt := t.instant_lt_firstMidnight
  have heq : t.firstMidnight = s.firstMidnight := by
    unfold firstMidnight
    rw [hdate, hoffset]
  rw [before_iff]
  omega

/-- A moment of May 2025, for runs that are given step by step. Days are counted from zero, and what
is too large starts over. -/
def inMay (day hour micros : Nat) : Moment where
  date := ⟨2025, 5, day % 31 + 1, by decide, by decide, Nat.le_add_left 1 _,
    Nat.mod_lt day (Nat.succ_pos 30)⟩
  micros := hour % 24 * Micros.hour + micros % 1000000
  micros_lt := by
    simp only [Micros.day, Micros.hour, Micros.minute, Micros.second]
    omega
  offset := none

/-- The same date and time of day so many hours east, which start over after a day. -/
def east (hours : Nat) (t : Moment) : Moment :=
  { t with
    offset := some ⟨(hours % 24 * Micros.hour : Nat), by
      simp only [Micros.day, Micros.hour, Micros.minute, Micros.second]
      omega⟩ }

end Moment
end Stratum
