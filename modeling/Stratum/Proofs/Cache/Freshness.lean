import Stratum.Proofs.Cache.Clock

/-!
# Values are of the day

A call reads the clock before it checks, so that what a check or a clear has read may be gone by
when the step is taken. Here every step has the time at which it is taken, and the clock never goes
back and keeps one offset, or knows none. Whoever read a time after a midnight and returns a value
returns one whose computation was registered at that midnight or later, whenever it landed.
-/

namespace Stratum
namespace Machine

/-- A step and the time at which it is taken. -/
structure Tick (K V : Type) where
  step : Step K V
  time : Moment

variable {K V : Type}

/-- A history by a clock that never goes back and keeps its offset: what a step has read is a time
that has come, and not one of the last day. -/
structure Forward (o : Option Offset) (ticks : List (Tick K V)) : Prop where
  /-- The times of the steps are in order. -/
  ordered : ticks.Pairwise fun s t => s.time.UpTo t.time
  /-- A step that reads the clock has done so by the time at which it is taken. -/
  read : ∀ t ∈ ticks, t.step.Reads → t.step.before.now.UpTo t.time
  /-- Every reading is at the offset that the clock keeps. -/
  offset : ∀ t ∈ ticks, t.step.Reads → t.step.before.now.offset = o
  /-- No reading is one of the last day. -/
  notLast : ∀ t ∈ ticks, t.step.Reads → ¬t.step.before.now.date.IsLast

variable {o : Option Offset} {ticks earlier later first rest : List (Tick K V)}
  {before after : List (Step K V)} {c : Step K V} {t x z : Tick K V} {m : Machine K V}
  {now d midnight : Moment} {id : Nat} {k : K}
  {r : Option V} {found : Lookup V}

/-- Where the steps of a history are cut at a step, the history is cut at its tick. -/
theorem exists_tick_of_split (h : ticks.map Tick.step = before ++ c :: after) :
    ∃ earlier t later, ticks = earlier ++ t :: later ∧ earlier.map Tick.step = before ∧
      t.step = c ∧ later.map Tick.step = after := by
  obtain ⟨earlier, rest, rfl, hbefore, hrest⟩ := List.map_eq_append_iff.mp h
  obtain ⟨t, later, rfl, ht, hafter⟩ := List.map_eq_cons_iff.mp hrest
  exact ⟨earlier, t, later, rfl, hbefore, ht, hafter⟩

/-- A clock that never goes back does not do so in the first part of a history. -/
theorem Forward.left (h : Forward o (earlier ++ later)) : Forward o earlier where
  ordered := (List.pairwise_append.mp h.ordered).1
  read t ht := h.read t (List.mem_append_left later ht)
  offset t ht := h.offset t (List.mem_append_left later ht)
  notLast t ht := h.notLast t (List.mem_append_left later ht)

/-- What a step has read is not later than the times of the steps after it. -/
theorem Forward.read_upTo (h : Forward o (earlier ++ t :: later)) (ht : t.step.Reads)
    (hz : z ∈ later) : t.step.before.now.UpTo z.time := by
  have hmem : t ∈ earlier ++ t :: later := List.mem_append_right earlier List.mem_cons_self
  have htail := (List.pairwise_append.mp h.ordered).2.1
  exact (h.read t hmem ht).trans ((List.pairwise_cons.mp htail).1 z hz)

/-- A midnight that is before a deadline is not later than what the clear read that set the
deadline. -/
theorem upTo_of_isFirstMidnightAfter {read : Moment} (hd : d.IsFirstMidnightAfter read)
    (hm : midnight.micros = 0) (ho : midnight.offset = read.offset) (hbefore : midnight.Before d) :
    midnight.UpTo read := by
  rcases Moment.upTo_or_before (congrArg Option.isSome ho) with h | h
  · exact h
  · -- Between what was read and the deadline there is no midnight.
    exact absurd (hd.first midnight hm ho h) hbefore.not_upTo

/-- The tick of a step that is taken when the clock is read. -/
def Step.tick (s : Step K V) : Tick K V := ⟨s, s.before.now⟩

/-- Steps that are taken when the clock is read make a history by a clock that never goes back and
keeps its offset, if the clock does. -/
theorem forward_tick {past : List (Step K V)}
    (hordered : past.Pairwise fun s t => s.before.now.UpTo t.before.now)
    (hoffset : ∀ s ∈ past, s.before.now.offset = o)
    (hlast : ∀ s ∈ past, ¬s.before.now.date.IsLast) : Forward o (past.map Step.tick) where
  ordered := List.pairwise_map.mpr hordered
  read := by
    simp only [List.forall_mem_map]
    exact fun s _ _ => Moment.UpTo.refl _
  offset := by
    simp only [List.forall_mem_map]
    exact fun s hs _ => hoffset s hs
  notLast := by
    simp only [List.forall_mem_map]
    exact fun s hs _ => hlast s hs

variable [DecidableEq K]

/-- Nothing has happened before the first clear, or the deadline is the first midnight after what
the latest clear read. -/
theorem Runs.deadline_cases (h : Runs (start now) (ticks.map Tick.step) m)
    (hclock : Forward o ticks) :
    ((∀ t ∈ ticks, ¬t.step.Clears) ∧ m.cache = .empty) ∨
      ∃ earlier c later d, ticks = earlier ++ c :: later ∧ c.step.Clears ∧
        (∀ t ∈ later, ¬t.step.Clears) ∧ m.cache.deadline = some d ∧
        d.IsFirstMidnightAfter c.step.before.now := by
  rcases h.exists_latestClear with hnever | ⟨before, c, after, hc⟩
  · exact .inl ⟨fun t ht => hnever t.step (List.mem_map_of_mem ht), (h.idle hnever).1⟩
  · obtain ⟨earlier, t, later, rfl, rfl, rfl, rfl⟩ := exists_tick_of_split hc.split
    have hmem : t ∈ earlier ++ t :: later := List.mem_append_right earlier List.mem_cons_self
    obtain ⟨d, hd, hfirst⟩ :=
      h.deadline_of_latestClear hc (hclock.notLast t hmem hc.clears.reads)
    exact .inr ⟨earlier, t, later, d, rfl, hc.clears,
      fun t ht => hc.latest t.step (List.mem_map_of_mem ht), hd, hfirst⟩

/-- A call that returns was checked at a reading not past the first midnight after a clear, which
came before the check or was the check itself. The look comes later. -/
theorem Runs.clear_of_check (h : Runs (start now) ((earlier ++ x :: later).map Tick.step) m)
    (hclock : Forward o (earlier ++ x :: later)) (hx : x.step.action = .check id)
    (ha : m.Stands id k (.answered (.returned r))) :
    ∃ first c rest d, earlier ++ [x] = first ++ c :: rest ∧ c.step.Clears ∧
      d.IsFirstMidnightAfter c.step.before.now ∧ x.step.before.now.UpTo d ∧
      ∃ found, Looked (later.map Tick.step) id k found := by
  rw [List.map_append, List.map_cons] at h
  obtain ⟨m', cleared, hstep, -, hok, hcache, hlooked⟩ :=
    h.looks_after_check hx ha (by cases r <;> nofun)
  obtain ⟨d, hd, hupTo⟩ := Cache.deadline_refresh hok
  rw [← hcache] at hd
  have hchecked : Runs (start now) ((earlier ++ [x]).map Tick.step) m' := by
    rw [List.map_append]
    exact h.split.1.step hstep
  have hleft : Forward o (earlier ++ [x]) := by
    rw [List.append_cons] at hclock
    exact hclock.left
  rcases hchecked.deadline_cases hleft with
    ⟨-, hempty⟩ | ⟨first, c, rest, d', hsplit, hc, -, hd', hfirst⟩
  · -- The check has left a deadline, so that something was cleared.
    rw [hempty] at hd
    contradiction
  · obtain rfl : d = d' := Option.some.inj (hd.symm.trans hd')
    exact ⟨first, c, rest, d, hsplit, hc, hfirst, hupTo, hlooked⟩

/-- What a call returns was registered after any clear that came before its look. -/
theorem Runs.registered_after_clear (h : Runs (start now) (before ++ c :: after) m)
    (hc : c.Clears) (hlooked : Looked after id k found)
    (ha : m.Stands id k (.answered (.returned r))) :
    ∃ owner f g, Registered after owner k f g ∧ Landed (before ++ c :: after) owner k f g (.ok r) ∧
      ((∃ v, r = some v ∧ found = .hit v) ∨ found = .joined f ∨ found = .started f g) := by
  obtain ⟨y, hy, hlooks⟩ := hlooked
  have hmem : y ∈ before ++ c :: after := List.mem_append_right before (List.mem_cons_of_mem c hy)
  obtain ⟨owner, f, hl, hfound⟩ := h.exists_landed_of_returned hmem hlooks ha
  have hr := h.registered_after hc (h.generation_lt hc hy) (h.registered_of_landed hl)
  exact ⟨owner, f, _, hr, hl, hfound⟩

/-- What a call returns was registered at a time not earlier than what was read by any clear that
came before its look. -/
theorem Runs.registered_by_read (h : Runs (start now) ((first ++ t :: rest).map Tick.step) m)
    (hclock : Forward o (first ++ t :: rest)) (ht : t.step.Clears)
    (hlooked : Looked (rest.map Tick.step) id k found)
    (ha : m.Stands id k (.answered (.returned r))) :
    ∃ z ∈ first ++ t :: rest, ∃ owner f g, t.step.before.now.UpTo z.time ∧
      z.step.Looks owner k (.started f g) ∧
      Landed ((first ++ t :: rest).map Tick.step) owner k f g (.ok r) ∧
      ((∃ v, r = some v ∧ found = .hit v) ∨ found = .joined f ∨ found = .started f g) := by
  rw [List.map_append, List.map_cons] at h ⊢
  obtain ⟨owner, f, g, ⟨s, hs, hlooks⟩, hl, hfound⟩ := h.registered_after_clear ht hlooked ha
  obtain ⟨z, hz, rfl⟩ := List.mem_map.mp hs
  exact ⟨z, List.mem_append_right first (List.mem_cons_of_mem t hz), owner, f, g,
    hclock.read_upTo ht.reads hz, hlooks, hl, hfound⟩

/-- Before the first clear a cache is empty; from then on its deadline is the first midnight after
what the latest clear read. A call whose check read a time after a midnight returns what a
computation came to that was registered at that midnight or later. -/
theorem Runs.fresh_after_midnight (h : Runs (start now) (ticks.map Tick.step) m)
    (hclock : Forward o ticks) :
    ((∀ t ∈ ticks, ¬t.step.Clears) ∧ m.cache.deadline = none ∧ m.cache.entries = [] ∧
        m.cache.flights = [] ∨
      ∃ earlier c later d, ticks = earlier ++ c :: later ∧ c.step.Clears ∧
        (∀ t ∈ later, ¬t.step.Clears) ∧ m.cache.deadline = some d ∧
        d.IsFirstMidnightAfter c.step.before.now) ∧
    ∀ earlier x later, ticks = earlier ++ x :: later → ∀ id r, x.step.action = .check id →
      m.answer? id = some (.returned r) →
        ∀ midnight : Moment, midnight.micros = 0 → midnight.offset = o →
          midnight.Before x.step.before.now →
            ∃ z ∈ ticks, ∃ k owner f g found, midnight.UpTo z.time ∧
              z.step.Looks owner k (.started f g) ∧
              Landed (ticks.map Tick.step) owner k f g (.ok r) ∧
              Looked (later.map Tick.step) id k found ∧
              ((∃ v, r = some v ∧ found = .hit v) ∨ found = .joined f ∨
                found = .started f g) := by
  constructor
  · refine (h.deadline_cases hclock).imp_left ?_
    rintro ⟨hnever, hempty⟩
    rw [hempty]
    exact ⟨hnever, rfl, rfl, rfl⟩
  rintro earlier x later rfl id r hx ha midnight hm ho hbefore
  obtain ⟨k, ha⟩ := stands_of_answer ha
  obtain ⟨first, c, rest, d, hsplit, hc, hfirst, hupTo, found, hlooked⟩ :=
    h.clear_of_check hclock hx ha
  -- The history is cut at the clear that set the deadline, and what is returned came after it.
  have hcut : earlier ++ x :: later = first ++ c :: (rest ++ later) := by
    rw [List.append_cons, hsplit, List.append_assoc, List.cons_append]
  have hlooked' : Looked ((rest ++ later).map Tick.step) id k found := by
    rw [List.map_append]
    exact happened_append.mpr (.inr hlooked)
  rw [hcut] at h hclock ⊢
  have hoffset : c.step.before.now.offset = o := hclock.offset c (by simp) hc.reads
  have hread : midnight.UpTo c.step.before.now :=
    upTo_of_isFirstMidnightAfter hfirst hm (ho.trans hoffset.symm) (hbefore.trans_upTo hupTo)
  obtain ⟨z, hz, owner, f, g, htime, hlooks, hl, hfound⟩ :=
    h.registered_by_read hclock hc hlooked' ha
  exact ⟨z, hz, k, owner, f, g, found, hread.trans htime, hlooks, hl, hlooked, hfound⟩

end Machine

namespace OverMidnight

/-- A computation that began at noon lands with 7 after midnight, before anyone has looked; then a
second call is checked and computes. -/
def actions : List (Action String Nat) := [
  .call none "k", .check 0, .look 0, .setClock (.inMay 1 0 1), .finish 0 (.ok (some 7)),
  .call none "k", .check 1, .look 1, .finish 1 (.ok (some 8))]

/-- The steps taken. -/
def past : List (Machine.Step String Nat) := Machine.trace .noon actions

/-- The machine that they lead to. -/
def final : Machine String Nat := actions.foldl Machine.step .noon

/-- The second call returns a value that was registered after midnight. -/
theorem value_of_the_day :
    final.answer? 1 = some (.value 8) ∧
      ∃ z ∈ past.map Machine.Step.tick, ∃ k owner f g, (Moment.inMay 1 0 0).UpTo z.time ∧
        z.step.Looks owner k (.started f g) ∧ Machine.Landed past owner k f g (.ok (some 8)) := by
  have hrun : Machine.Runs .noon past final := Machine.runs_trace rfl
  have hclock : Machine.Forward none (past.map Machine.Step.tick) :=
    Machine.forward_tick (by decide) (by decide) (by decide)
  have hsteps : (past.map Machine.Step.tick).map Machine.Tick.step = past := rfl
  obtain ⟨z, hz, k, owner, f, g, found, htime, hlooks, hl, -⟩ :=
    (Machine.Runs.fresh_after_midnight (hsteps ▸ hrun) hclock).2
      ((past.take 6).map Machine.Step.tick) past[6].tick ((past.drop 7).map Machine.Step.tick) rfl 1
      (some 8) rfl rfl (.inMay 1 0 0) rfl rfl (by decide)
  exact ⟨rfl, z, hz, k, owner, f, g, htime, hlooks, hsteps ▸ hl⟩

end OverMidnight

end Stratum
