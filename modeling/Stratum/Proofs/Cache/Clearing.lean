import Stratum.Proofs.Cache.Clock

/-!
# Clears that fail

A clear is complete or has not begun, but for one case. Where the clock and the deadline have no
order a check fails before it has changed anything. On the last day of the calendar a clear, and a
check that clears, fail for want of a next midnight, and by then the entries and the flights are
gone and the next generation has begun, while the deadline is still the old one.
-/

namespace Stratum
namespace Cache

variable {K V : Type} {c : Cache K V} {now : Moment} {fault : ClockFault}

/-- The cache without its entries and flights, in the next generation, with its deadline. -/
def dropped (c : Cache K V) : Cache K V :=
  { c with entries := [], flights := [], generation := c.generation + 1 }

/-- No cache is as it was after its entries and flights were dropped. -/
theorem dropped_ne (c : Cache K V) : c.dropped ≠ c := by
  intro h
  have hg : c.generation + 1 = c.generation := congrArg Cache.generation h
  omega

/-- A clear that finds a next midnight takes it for the deadline, and succeeds. -/
theorem clear_of_nextMidnight {midnight : Moment} (h : now.nextMidnight? = some midnight) :
    c.clear now = ({ c.dropped with deadline := some midnight }, none) := by
  unfold clear
  rw [h]
  rfl

/-- On the last day a clear drops the entries and the flights, and fails. -/
theorem clear_of_isLast (h : now.date.IsLast) : c.clear now = (c.dropped, some .lastDay) := by
  unfold clear
  rw [now.nextMidnight?_eq_none_iff.mpr h]
  rfl

/-- A clear fails on the last day. -/
theorem clear_eq_some_iff : (c.clear now).2 = some fault ↔ fault = .lastDay ∧ now.date.IsLast := by
  by_cases hlast : now.date.IsLast
  · simp [clear_of_isLast hlast, hlast, eq_comm]
  · obtain ⟨midnight, hnext⟩ := Moment.exists_nextMidnight? hlast
    simp [clear_of_nextMidnight hnext, hlast]

/-- Whether a cache is expired cannot be told if the clock and the deadline have no order. -/
theorem isExpired_eq_error_iff :
    c.isExpired now = .error fault ↔
      fault = .incomparable ∧ ∃ d, c.deadline = some d ∧ now.comparable d = false := by
  unfold isExpired
  cases c.deadline with
  | none => simp
  | some d =>
    by_cases hc : now.comparable d = true
    · simp [hc]
    · simp [hc, eq_comm (a := fault)]

/-- A refresh fails if it cannot be told whether the cache is expired, or by its clear. -/
theorem refresh_eq_error_iff :
    (c.refresh now).2 = .error fault ↔
      c.isExpired now = .error fault ∨
        c.isExpired now = .ok true ∧ fault = .lastDay ∧ now.date.IsLast := by
  rw [← clear_eq_some_iff (c := c)]
  unfold refresh
  rcases c.isExpired now with fault' | _ | _
  · simp
  · simp
  · rcases c.clear now with ⟨c', _ | fault'⟩ <;> simp

end Cache

namespace Machine

variable {K V : Type} [DecidableEq K] {m' : Machine K V} {s : Step K V} {id : Nat}
  {fault : ClockFault}

/-- A step that reads the clock fails: whoever clears the cache, or the call that checks whether it
is expired. -/
inductive Step.Fails (s : Step K V) (fault : ClockFault) : Prop
  | clear (haction : s.action = .clear)
      (hfault : (s.before.cache.clear s.before.now).2 = some fault)
  | check (id : Nat) (haction : s.action = .check id)
      (hfault : (s.before.cache.refresh s.before.now).2 = .error fault)

omit [DecidableEq K] in
/-- A step fails if it clears on the last day, or if it checks a cache whose deadline has no order
with the clock. -/
theorem Step.fails_iff :
    s.Fails fault ↔
      (fault = .lastDay ∧ s.Clears ∧ s.before.now.date.IsLast) ∨
        fault = .incomparable ∧ ∃ id d, s.action = .check id ∧
          s.before.cache.deadline = some d ∧ s.before.now.comparable d = false := by
  constructor
  · rintro (⟨haction, hfault⟩ | ⟨id, haction, hfault⟩)
    · obtain ⟨rfl, hlast⟩ := Cache.clear_eq_some_iff.mp hfault
      exact .inl ⟨rfl, .inl haction, hlast⟩
    · rcases Cache.refresh_eq_error_iff.mp hfault with hexp | ⟨hexp, rfl, hlast⟩
      · obtain ⟨rfl, d, hd, hc⟩ := Cache.isExpired_eq_error_iff.mp hexp
        exact .inr ⟨rfl, id, d, haction, hd, hc⟩
      · exact .inl ⟨rfl, .inr ⟨id, haction, hexp⟩, hlast⟩
  · rintro (⟨rfl, haction | ⟨id, haction, hexp⟩, hlast⟩ | ⟨rfl, id, d, haction, hd, hc⟩)
    · exact .clear haction (Cache.clear_eq_some_iff.mpr ⟨rfl, hlast⟩)
    · exact .check id haction (Cache.refresh_eq_error_iff.mpr (.inr ⟨hexp, rfl, hlast⟩))
    · have hexp := Cache.isExpired_eq_error_iff.mpr ⟨rfl, d, hd, hc⟩
      exact .check id haction (Cache.refresh_eq_error_iff.mpr (.inl hexp))

/-- A step that fails for want of a next midnight has dropped the entries and the flights. -/
theorem Step.LeadsTo.cache_of_lastDay (h : s.LeadsTo m') (hf : s.Fails .lastDay) :
    m'.cache = s.before.cache.dropped := by
  rcases Step.fails_iff.mp hf with ⟨-, hclears, hlast⟩ | ⟨hfault, -⟩
  · rw [hclears.cache h, Cache.clear_of_isLast hlast]
  · contradiction

/-- A step that fails since the clock and the deadline have no order has changed nothing. -/
theorem Step.LeadsTo.cache_of_incomparable (h : s.LeadsTo m') (hf : s.Fails .incomparable) :
    m'.cache = s.before.cache := by
  rcases Step.fails_iff.mp hf with ⟨hfault, -⟩ | ⟨-, id, d, haction, hd, hc⟩
  · contradiction
  · have hexp := Cache.isExpired_eq_error_iff.mpr ⟨rfl, d, hd, hc⟩
    obtain ⟨k, -, hcache, -⟩ := h.checks haction
    rw [hcache, Cache.refresh_fst_of_ne (by simp [hexp])]

omit [DecidableEq K] in
/-- A clear that fails logs nothing. -/
theorem log_clear_of_some {m : Machine K V} (h : (m.cache.clear m.now).2 = some fault) :
    m.clear.log = m.log := by
  unfold clear
  rcases hc : m.cache.clear m.now with ⟨cache, _ | fault'⟩
  · simp [hc] at h
  · rfl

omit [DecidableEq K] in
/-- A check that fails logs nothing. -/
theorem log_check_of_error {m : Machine K V} (h : (m.cache.refresh m.now).2 = .error fault) :
    (m.check id).log = m.log := by
  unfold check
  rcases hr : m.cache.refresh m.now with ⟨cache, fault' | cleared⟩
  · rfl
  · simp [hr] at h

/-- A step that fails logs nothing, and the call whose check failed is answered with the fault. -/
theorem Step.LeadsTo.tells_of_fails (h : s.LeadsTo m') (hf : s.Fails fault) :
    m'.log = s.before.log ∧ ∀ id, s.action = .check id → m'.answer? id = some (.clock fault) := by
  rcases hf with ⟨haction, hfault⟩ | ⟨id, haction, hfault⟩
  · simp only [LeadsTo, haction, step?, Option.some.injEq] at h
    refine ⟨h ▸ log_clear_of_some hfault, fun id hcheck => ?_⟩
    rw [haction] at hcheck
    contradiction
  · obtain ⟨k, ⟨parent, hcall⟩, -, hchecked⟩ := h.checks haction
    have hlog : m'.log = s.before.log := by
      simp only [LeadsTo, haction, step?, hcall, Option.some.injEq] at h
      exact h ▸ log_check_of_error hfault
    refine ⟨hlog, fun id' hcheck => ?_⟩
    obtain rfl : id = id' := Action.check.inj (haction.symm.trans hcheck)
    rw [hfault] at hchecked
    obtain ⟨fault', hfault', hanswered⟩ | ⟨cleared, hok, -⟩ := hchecked
    · injection hfault' with hfault'
      rw [hfault']
      exact answer_of_stands hanswered
    · contradiction

/-- A step that clears and does not fail leaves a cache without entries and flights in the next
generation, whose deadline is the next midnight. A step fails if it clears on the last day, and then
everything but the deadline is as if it had succeeded, or if it checks a cache whose deadline has no
order with the clock, and then the cache is as before. -/
theorem Step.LeadsTo.clears_or_fails (h : s.LeadsTo m') :
    (∀ fault, s.Fails fault ↔
      (fault = .lastDay ∧ s.Clears ∧ s.before.now.date.IsLast) ∨
        fault = .incomparable ∧ ∃ id d, s.action = .check id ∧
          s.before.cache.deadline = some d ∧ s.before.now.comparable d = false) ∧
    (s.Clears → (∀ fault, ¬s.Fails fault) → ∃ midnight,
      s.before.now.nextMidnight? = some midnight ∧
        m'.cache = { s.before.cache.dropped with deadline := some midnight }) ∧
    (s.Fails .lastDay → m'.cache = s.before.cache.dropped ∧ m'.cache ≠ s.before.cache) ∧
    (s.Fails .incomparable → m'.cache = s.before.cache) ∧
    ∀ fault, s.Fails fault → m'.log = s.before.log ∧
      ∀ id, s.action = .check id → m'.answer? id = some (.clock fault) := by
  refine ⟨fun _ => Step.fails_iff, ?_, ?_, h.cache_of_incomparable, fun _ => h.tells_of_fails⟩
  · intro hclears hnot
    have hlast : ¬s.before.now.date.IsLast :=
      fun hlast => hnot .lastDay (Step.fails_iff.mpr (.inl ⟨rfl, hclears, hlast⟩))
    obtain ⟨midnight, hnext⟩ := Moment.exists_nextMidnight? hlast
    refine ⟨midnight, hnext, ?_⟩
    rw [hclears.cache h, Cache.clear_of_nextMidnight hnext]
  · intro hf
    have hcache := h.cache_of_lastDay hf
    exact ⟨hcache, hcache ▸ s.before.cache.dropped_ne⟩

end Machine

namespace LastDay

/-- Noon of a day of the last December. -/
def noonOf (day : Fin 31) : Moment where
  date := ⟨9999, 12, day + 1, by decide, by decide, Nat.le_add_left 1 day, day.isLt⟩
  micros := 12 * Micros.hour
  micros_lt := by decide
  offset := none

/-- A value is kept on the last day but one. On the last day the cache is cleared, and then a call
is made. -/
def actions : List (Action String Nat) := [
  .call none "k", .check 0, .look 0, .finish 0 (.ok (some 7)), .setClock (noonOf 30), .clear,
  .call none "k", .check 1]

/-- The steps taken. -/
def past : List (Machine.Step String Nat) := Machine.trace (.start (noonOf 29)) actions

/-- The machine that they lead to. -/
def final : Machine String Nat := actions.foldl Machine.step (.start (noonOf 29))

/-- The call on the last day is answered that the clock failed it, and its check has dropped
everything once more. -/
theorem fails_at_check :
    final.cache = past[7].before.cache.dropped ∧ final.cache.generation = 3 ∧
      final.answer? 1 = some (.clock .lastDay) := by
  have hstep : past[7].LeadsTo final := rfl
  have hfails : past[7].Fails .lastDay := .check 1 rfl rfl
  have hcache := (hstep.clears_or_fails.2.2.1 hfails).1
  exact ⟨hcache, rfl, (hstep.clears_or_fails.2.2.2.2 .lastDay hfails).2 1 rfl⟩

/-- The clear on the last day fails, and yet the value is gone and the generation is another one. -/
theorem drops_at_failed_clear :
    past[5].Fails .lastDay ∧ past[5].before.cache.entries = [("k", 7)] ∧
      past[5].before.cache.generation = 1 ∧ past[6].before.cache.entries = [] ∧
      past[6].before.cache.generation = 2 ∧
      past[6].before.cache.deadline = past[5].before.cache.deadline :=
  ⟨.clear rfl rfl, rfl, rfl, rfl, rfl, rfl⟩

end LastDay
end Stratum
