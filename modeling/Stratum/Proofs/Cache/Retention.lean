import Stratum.Proofs.Cache.Clock

/-!
# Values stay for the day

Here a check or a clear reads the clock when it is taken, and the clock keeps one offset, or none,
and never goes back. Then no check fails, no reading is past the deadline once its step is taken,
and a cache does not expire on a day on which it was cleared. What a call stored or found is found
by every call that looks later, up to the first midnight.
-/

namespace Stratum

/-- What lands is not that the clock failed. -/
theorem Landing.answer_ne_clock {V : Type} (l : Landing V) (fault : ClockFault) :
    l.toOwner ≠ .clock fault ∧ l.toJoined ≠ .clock fault := by
  cases l with
  | value v => simp [toOwner, toJoined]
  | nothing => simp [toOwner, toJoined]
  | failed e n => by_cases he : e.isRepeatable = true <;> simp [toOwner, toJoined, he]

namespace Machine

variable {K V : Type}

/-- A history by a clock that never goes back and keeps its offset: what is read is read when the
step is taken, and not on the last day. -/
structure Steady (o : Option Offset) (past : List (Step K V)) : Prop where
  /-- What the clock tells is in the order of the steps. -/
  ordered : past.Pairwise fun s t => s.before.now.UpTo t.before.now
  /-- Every reading is at the offset that the clock keeps. -/
  offset : ∀ s ∈ past, s.Reads → s.before.now.offset = o
  /-- No reading is one of the last day. -/
  notLast : ∀ s ∈ past, s.Reads → ¬s.before.now.date.IsLast

/-- A step clears the cache because it is expired. -/
def Step.Expires (s : Step K V) : Prop :=
  ∃ id, s.action = .check id ∧ s.before.cache.isExpired s.before.now = .ok true

variable {o : Option Offset} {past before between after : List (Step K V)} {s t x : Step K V}

/-- A clear on demand or because the cache is expired. -/
theorem Step.clears_iff : s.Clears ↔ s.action = .clear ∨ s.Expires := Iff.rfl

/-- A steady clock is steady in the first part of a history. -/
theorem Steady.left (h : Steady o (before ++ after)) : Steady o before where
  ordered := (List.pairwise_append.mp h.ordered).1
  offset s hs := h.offset s (List.mem_append_left after hs)
  notLast s hs := h.notLast s (List.mem_append_left after hs)

variable [DecidableEq K] {m m' : Machine K V} {now d : Moment} {id : Nat} {k : K} {v : V}

/-! ## Readings and the deadline -/

/-- A deadline is a midnight at the offset of the clock. -/
theorem Runs.steady_deadline (h : Runs (start now) past m) (hclock : Steady o past)
    (hd : m.cache.deadline = some d) : d.micros = 0 ∧ d.offset = o := by
  rcases h.exists_latestClear with hnever | ⟨before, c, after, hc⟩
  · rw [(h.idle hnever).1] at hd
    contradiction
  · have hmem : c ∈ past := hc.split ▸ List.mem_append_right before List.mem_cons_self
    obtain ⟨d', hd', hfirst⟩ := h.deadline_of_latestClear hc (hclock.notLast c hmem hc.clears.reads)
    obtain rfl : d = d' := Option.some.inj (hd.symm.trans hd')
    exact ⟨hfirst.micros, hfirst.offset.trans (hclock.offset c hmem hc.clears.reads)⟩

/-- No refresh of a check fails. -/
theorem Runs.refresh_ok (h : Runs (start now) past s.before) (hclock : Steady o (past ++ [s]))
    (haction : s.action = .check id) :
    ∃ cleared, (s.before.cache.refresh s.before.now).2 = .ok cleared := by
  have hmem : s ∈ past ++ [s] := by simp
  have hreads : s.Reads := .inr ⟨id, haction⟩
  refine Cache.refresh_snd (hclock.notLast s hmem hreads) fun d hd => ?_
  -- The deadline is at the offset that the clock still keeps.
  obtain ⟨-, ho⟩ := h.steady_deadline hclock.left hd
  rw [Moment.comparable_iff, ho, hclock.offset s hmem hreads]

/-- No call is answered that the clock failed it. -/
theorem Runs.not_clock {fault : ClockFault} (h : Runs (start now) past m)
    (hclock : Steady o past) : ¬m.Stands id k (.answered (.clock fault)) := by
  induction h with
  | refl => exact not_stands_start
  | @step past s m hrun hstep ih =>
    intro hs
    rcases hstep.stands_or_brings hs with hs | hb
    · exact ih hclock.left hs
    cases hb with
    | called hp => contradiction
    | checked _ _ _ _ hp => contradiction
    | failed haction fault' herror _ =>
      obtain ⟨cleared, hok⟩ := hrun.refresh_ok hclock haction
      rw [hok] at herror
      contradiction
    | looked found _ hp => cases found <;> simp [Lookup.phase] at hp
    | landed f g result _ hp =>
      have hne := (landing s.before.failures result).answer_ne_clock fault
      exact hne.1 (Phase.answered.inj hp).symm
    | received f l _ hp =>
      exact (l.answer_ne_clock fault).2 (Phase.answered.inj hp).symm

/-- A step that clears leaves a deadline that is later than its reading. -/
theorem Step.Clears.read_before_deadline (hc : s.Clears) (h : s.LeadsTo m')
    (hlast : ¬s.before.now.date.IsLast) :
    ∃ d, m'.cache.deadline = some d ∧ s.before.now.Before d := by
  obtain ⟨d, hnext⟩ := Moment.exists_nextMidnight? hlast
  rw [hc.cache h]
  exact ⟨d, Cache.deadline_clear hnext, (Moment.isFirstMidnightAfter_of_nextMidnight? hnext).before⟩

/-- No reading is past the deadline, and those at which the cache was cleared are before it. -/
theorem Runs.read_upTo_deadline (h : Runs (start now) past m) (hclock : Steady o past)
    (hx : x ∈ past) (hreads : x.Reads) :
    ∃ d, m.cache.deadline = some d ∧ x.before.now.UpTo d ∧ (x.Clears → x.before.now.Before d) := by
  induction h with
  | refl => exact absurd hx List.not_mem_nil
  | @step past s m hrun hstep ih =>
    have hmem : s ∈ past ++ [s] := by simp
    by_cases hc : s.Clears
    · obtain ⟨d, hd, hbefore⟩ := hc.read_before_deadline hstep (hclock.notLast s hmem hc.reads)
      -- Whatever was read earlier is not later than what is read now.
      have hle : x.before.now.UpTo s.before.now := by
        rcases List.mem_append.mp hx with hx | hx
        · exact (List.pairwise_append.mp hclock.ordered).2.2 x hx s List.mem_cons_self
        · rw [List.mem_singleton.mp hx]
          exact .refl _
      exact ⟨d, hd, (hle.trans_before hbefore).upTo, fun _ => hle.trans_before hbefore⟩
    · rcases List.mem_append.mp hx with hx | hx
      · rw [(hstep.leaves_deadline hc).2]
        exact ih hclock.left hx
      · obtain rfl := List.mem_singleton.mp hx
        obtain haction | ⟨id, haction⟩ := hreads
        · exact absurd (.inl haction) hc
        obtain ⟨cleared, hok⟩ := hrun.refresh_ok hclock haction
        obtain ⟨k, -, hcache, -⟩ := hstep.checks haction
        obtain ⟨d, hd, hle⟩ := Cache.deadline_refresh hok
        exact ⟨d, hcache ▸ hd, hle, fun hclears => absurd hclears hc⟩

/-- A cache that expires does so at a deadline that no reading before was past. -/
theorem Runs.deadline_of_expires (h : Runs (start now) past s.before) (hclock : Steady o past)
    (hs : s.Expires) (hx : x ∈ past) (hreads : x.Reads) :
    ∃ d : Moment, d.micros = 0 ∧ d.offset = o ∧ x.before.now.UpTo d ∧
      (x.Clears → x.before.now.Before d) ∧ d.Before s.before.now := by
  obtain ⟨d, hd, hle, hbefore⟩ := h.read_upTo_deadline hclock hx hreads
  obtain ⟨hmicros, ho⟩ := h.steady_deadline hclock hd
  obtain ⟨id, -, hexpired⟩ := hs
  exact ⟨d, hmicros, ho, hle, hbefore, Cache.isExpired_eq_true.mp hexpired d hd⟩

/-! ## Clears of a day -/

/-- A cache does not expire on a day on which it was cleared. -/
theorem Runs.date_ne_of_expires (h : Runs (start now) (before ++ s :: between) t.before)
    (hclock : Steady o (before ++ s :: between ++ [t])) (hs : s.Clears) (ht : t.Expires) :
    t.before.now.date ≠ s.before.now.date := by
  have hmem : s ∈ before ++ s :: between := List.mem_append_right before List.mem_cons_self
  obtain ⟨d, hmicros, ho, -, hbefore, hafter⟩ :=
    h.deadline_of_expires hclock.left ht hmem hs.reads
  have hread : s.before.now.offset = o :=
    hclock.offset s (List.mem_append_left [t] hmem) hs.reads
  have hread' : t.before.now.offset = o :=
    hclock.offset t (by simp) (Step.Clears.reads (.inr ht))
  intro hdate
  exact (hbefore hs).not_before_of_date_eq hmicros (ho.trans hread.symm) hdate
    (hread'.trans hread.symm) hafter

/-! ## Values of a day -/

/-- A cache that is not cleared on demand is not cleared before the first midnight after a reading,
up to a later reading that is not past that midnight. -/
theorem Runs.not_clears_of_no_midnight (h : Runs (start now) (before ++ between) m)
    (hclock : Steady o (before ++ between)) (hx : x ∈ before) (hreads : x.Reads)
    (hdemand : ∀ u ∈ between, u.action ≠ .clear) {read : Moment}
    (hread : ∀ u ∈ between, u.Expires → u.before.now.UpTo read)
    (hnone : ∀ n : Moment, n.micros = 0 → n.offset = o → x.before.now.UpTo n → ¬n.Before read) :
    ∀ u ∈ between, ¬u.Clears := by
  intro u hu hclears
  rcases Step.clears_iff.mp hclears with haction | hexpires
  · exact hdemand u hu haction
  -- The deadline at which the cache expired would be a midnight between the two readings.
  have hle := hread u hu hexpires
  obtain ⟨first, rest, rfl⟩ := List.append_of_mem hu
  rw [← List.append_assoc] at h hclock
  obtain ⟨d, hmicros, ho, hfrom, -, hto⟩ :=
    h.split.1.deadline_of_expires hclock.left hexpires (List.mem_append_left first hx) hreads
  exact hnone d hmicros ho hfrom (hto.trans_upTo hle)

/-- What a call stores or finds has landed in the current generation. -/
theorem Runs.landed_of_stored (h : Runs (start now) (before ++ s :: after) m)
    (hs : s.Looks id k (.hit v) ∨
      ∃ f, s.Lands id k f s.before.cache.generation (.ok (some v))) :
    ∃ owner f,
      Landed (before ++ s :: after) owner k f s.before.cache.generation (.ok (some v)) := by
  rcases hs with hlooks | ⟨f, hlands⟩
  · obtain ⟨owner, f, hl⟩ :=
      h.split.1.landed_of_mem (Cache.mem_of_lookup (Cache.lookup_eq_hit.mp hlooks.2.2))
    exact ⟨owner, f, happened_append.mpr (.inl hl)⟩
  · exact ⟨id, f, happened_append.mpr (.inr (happened_cons.mpr (.inl hlands)))⟩

/-- What a call stored or found is an entry until the cache is cleared. -/
theorem Runs.lookup_of_stored (h : Runs (start now) (before ++ s :: after) m)
    (hs : s.Looks id k (.hit v) ∨
      ∃ f, s.Lands id k f s.before.cache.generation (.ok (some v)))
    (hnever : ∀ u ∈ after, ¬u.Clears) : m.cache.entries.lookup k = some v := by
  obtain ⟨owner, f, hl⟩ := h.landed_of_stored hs
  have hnot : ¬s.Clears := by
    rcases hs with hlooks | ⟨f, hlands⟩
    · exact fun hc => hc.not_looks hlooks
    · exact fun hc => hc.not_lands hlands
  have hrun := h.split.2.elim fun m' hm' => Runs.cons hm'.1 hm'.2
  have hgeneration : m.cache.generation = s.before.cache.generation :=
    (hrun.leaves_deadline (List.forall_mem_cons.mpr ⟨hnot, hnever⟩)).1
  exact h.lookup_of_landed (hgeneration ▸ hl)

/-- A call that may look and whose key has an entry is answered with it, and the cache stays as it
is. -/
theorem Stands.looks_hit (hs : m.Stands id k .checked)
    (hentry : m.cache.entries.lookup k = some v) :
    ∃ m', m.step? (.look id) = some m' ∧ m'.answer? id = some (.value v) ∧ m'.cache = m.cache := by
  obtain ⟨parent, hcall⟩ := hs
  have hstep : m.step? (.look id) = some (m.look id k) := by simp only [step?, hcall]
  have hlooks : Step.Looks ⟨m, .look id⟩ id k (.hit v) :=
    ⟨rfl, ⟨parent, hcall⟩, Cache.lookup_eq_hit.mpr hentry⟩
  refine ⟨m.look id k, hstep, answer_of_stands (hlooks.stands hstep), ?_⟩
  rw [hlooks.cache hstep]
  exact Cache.lookup_snd_of_ne fun f g hfound => by
    rw [Cache.lookup_eq_hit.mpr hentry] at hfound
    contradiction

/-- By a steady clock no call is answered that the clock failed it, and a cache does not expire on a
day on which it was cleared. When a call has stored or found a value, a call that may look at the
key is answered with that value and computes nothing, if the cache was not cleared on demand in
between and no midnight lies between the readings of the two calls, unless the cache has expired for
a call with a later reading. -/
theorem Runs.kept_for_the_day (h : Runs (start now) past m) (hclock : Steady o past) :
    (∀ id fault, m.answer? id ≠ some (.clock fault)) ∧
    (∀ before s between t after, past = before ++ s :: between ++ t :: after → s.Clears →
      t.Expires → t.before.now.date ≠ s.before.now.date) ∧
    ∀ before s between, past = before ++ s :: between → ∀ x ∈ before, ∀ id k v,
      x.action = .check id →
      (s.Looks id k (.hit v) ∨ ∃ f, s.Lands id k f s.before.cache.generation (.ok (some v))) →
        ∀ y ∈ past, ∀ id', y.action = .check id' → m.Stands id' k .checked →
          (∀ u ∈ between, u.action ≠ .clear) →
          (∀ u ∈ between, u.Expires → u.before.now.UpTo y.before.now) →
          (∀ midnight : Moment, midnight.micros = 0 → midnight.offset = o →
            x.before.now.UpTo midnight → ¬midnight.Before y.before.now) →
            ∃ m', m.step? (.look id') = some m' ∧ m'.answer? id' = some (.value v) ∧
              m'.cache = m.cache := by
  refine ⟨?_, ?_, ?_⟩
  · intro id fault ha
    obtain ⟨k, hs⟩ := stands_of_answer ha
    exact h.not_clock hclock hs
  · rintro before s between t after rfl hs ht
    rw [List.append_cons] at hclock
    exact h.split.1.date_ne_of_expires hclock.left hs ht
  · rintro before s between rfl x hx id k v haction hs y - id' - hstands hdemand hread hnone
    have hcut : before ++ s :: between = (before ++ [s]) ++ between := List.append_cons ..
    have hnever := Runs.not_clears_of_no_midnight (hcut ▸ h) (hcut ▸ hclock)
      (List.mem_append_left [s] hx) (.inr ⟨id, haction⟩) hdemand hread hnone
    exact hstands.looks_hit (h.lookup_of_stored hs hnever)

end Machine

namespace OneDay

/-- A call computes at noon. In the evening a second call is checked, and a third one after
midnight. -/
def actions : List (Action String Nat) := [
  .call none "k", .check 0, .look 0, .finish 0 (.ok (some 7)), .setClock (.inMay 0 18 0),
  .call none "k", .check 1, .setClock (.inMay 1 0 1), .call none "k", .check 2]

/-- The steps taken. -/
def past : List (Machine.Step String Nat) := Machine.trace .noon actions

/-- The machine that they lead to. -/
def final : Machine String Nat := actions.foldl Machine.step .noon

/-- No midnight comes between noon and six. -/
theorem not_before_evening {n : Moment} (hm : n.micros = 0) (ho : n.offset = none)
    (h : (Moment.inMay 0 12 0).UpTo n) : ¬n.Before (.inMay 0 18 0) := by
  have hday : n.instant = (n.date.ordinal * 86400000000 : Nat) := by
    simp [Moment.instant, hm, ho, Micros.day, Micros.hour, Micros.minute, Micros.second]
  have hnoon : (Moment.inMay 0 12 0).instant = 739372 * 86400000000 + 43200000000 := rfl
  have hevening : (Moment.inMay 0 18 0).instant = 739372 * 86400000000 + 64800000000 := rfl
  rw [Moment.upTo_iff] at h
  rw [Moment.before_iff]
  omega

/-- In the evening the second call gets the value of noon, and the cache expires on the next day. -/
theorem value_of_noon_in_the_evening :
    (∃ m', past[7].before.step? (.look 1) = some m' ∧ m'.answer? 1 = some (.value 7) ∧
      m'.cache = past[7].before.cache) ∧
      past[9].before.now.date ≠ past[1].before.now.date := by
  have hrun : Machine.Runs .noon past final := Machine.runs_trace rfl
  have hoffset : ∀ s ∈ past, s.before.now.offset = none := by decide
  have hlast : ∀ s ∈ past, ¬s.before.now.date.IsLast := by decide
  have hclock : Machine.Steady none past :=
    ⟨by decide, fun s hs _ => hoffset s hs, fun s hs _ => hlast s hs⟩
  have hcut : past = past.take 7 ++ past[7] :: past.drop 8 := rfl
  have hevening : Machine.Runs .noon (past.take 7) past[7].before :=
    (Machine.Runs.split (hcut ▸ hrun)).1
  have hclock' : Machine.Steady none (past.take 7) := Machine.Steady.left (hcut ▸ hclock)
  have hdemand : ∀ u ∈ (past.drop 4).take 3, u.action ≠ .clear := by
    intro u hu haction
    have hmem := Machine.action_mem_of_mem_trace (List.mem_of_mem_drop (List.mem_of_mem_take hu))
    simp [haction, actions] at hmem
  have hread : ∀ u ∈ (past.drop 4).take 3, u.before.now.UpTo past[6].before.now := by decide
  have hclears : past[1].Clears := .inr ⟨0, rfl, rfl⟩
  have hexpires : past[9].Expires := ⟨2, rfl, rfl⟩
  constructor
  · exact (hevening.kept_for_the_day hclock').2.2 (past.take 3) past[3] ((past.drop 4).take 3) rfl
      past[1] (List.getElem_mem (by decide : 1 < (past.take 3).length)) 0 "k" 7 rfl
      (.inr ⟨0, rfl, none, rfl⟩) past[6] (List.getElem_mem (by decide : 6 < (past.take 7).length)) 1
      rfl ⟨none, rfl⟩ hdemand (fun u hu _ => hread u hu) fun n hm ho => not_before_evening hm ho
  · exact (hrun.kept_for_the_day hclock).2.1 (past.take 1) past[1] ((past.drop 2).take 7) past[9] []
      rfl hclears hexpires

end OneDay

namespace Overtaken

/-- A call computes just after the midnight of an offset of two hours, and a second call looks on
the same date, when the clock goes on at one hour and has passed the midnight that follows at
two. -/
def offsetActions : List (Action String Nat) := [
  .call none "k", .check 0, .look 0, .finish 0 (.ok (some 1)),
  .setClock ((Moment.inMay 0 23 1).east 1), .call none "k", .check 1, .look 1]

/-- The start of the first run. -/
def offsetStart : Machine String Nat := .start ((Moment.inMay 0 0 1).east 2)

/-- The steps of the first run. -/
def offsetPast : List (Machine.Step String Nat) := Machine.trace offsetStart offsetActions

/-- A call stores a value at noon and a second call is checked at noon. Before that one looks, a
third call is checked after midnight. -/
def gapActions : List (Action String Nat) := [
  .call none "k", .check 0, .look 0, .finish 0 (.ok (some 1)), .call none "k", .check 1,
  .setClock (.inMay 1 0 1), .call none "j", .check 2, .look 1]

/-- The steps of the second run. -/
def gapPast : List (Machine.Step String Nat) := Machine.trace .noon gapActions

/-- A cache may expire twice on one date, if the clock changes its offset; and a call that was
checked before midnight may compute, if it looks after another call was checked after midnight. -/
theorem expired_twice_and_computed :
    (Machine.Runs offsetStart offsetPast (offsetActions.foldl Machine.step offsetStart) ∧
      (offsetPast.Pairwise fun s t => s.before.now.UpTo t.before.now) ∧
      (∀ s ∈ offsetPast, ¬s.before.now.date.IsLast) ∧
      offsetPast[1].Expires ∧ offsetPast[6].Expires ∧
      offsetPast[1].before.now.date = offsetPast[6].before.now.date) ∧
    Machine.Runs .noon gapPast (gapActions.foldl Machine.step .noon) ∧
      (gapPast.Pairwise fun s t => s.before.now.UpTo t.before.now) ∧
      (∀ s ∈ gapPast, ¬s.before.now.date.IsLast) ∧ (∀ s ∈ gapPast, s.action ≠ .clear) ∧
      gapPast[1].action = .check 0 ∧ gapPast[3].Lands 0 "k" 0 1 (.ok (some 1)) ∧
      gapPast[3].before.cache.generation = 1 ∧ gapPast[5].action = .check 1 ∧
      gapPast[5].before.now = gapPast[1].before.now ∧ gapPast[9].Looks 1 "k" (.started 1 2) := by
  refine ⟨⟨Machine.runs_trace rfl, by decide, by decide, ⟨0, rfl, rfl⟩, ⟨1, rfl, rfl⟩, rfl⟩,
    Machine.runs_trace rfl, by decide, by decide, ?_, rfl, ⟨rfl, none, rfl⟩, rfl, rfl, rfl,
    ⟨rfl, ⟨none, rfl⟩, rfl⟩⟩
  intro s hs haction
  have hmem := Machine.action_mem_of_mem_trace hs
  simp [haction, gapActions] at hmem

end Overtaken
end Stratum
