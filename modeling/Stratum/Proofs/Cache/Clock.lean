import Stratum.Proofs.Cache.Generations

/-!
# What the clock tells a cache

A cache reads the clock when a call checks whether it is expired, and when it is cleared. Until it
is first cleared nothing happens in it. From then on its deadline is the first midnight after what
the latest clear read, and a check that succeeds has read a time that is not later.
-/

namespace Stratum

/-! ## Checks -/

namespace Cache

variable {K V : Type} {c : Cache K V} {now : Moment}

/-- A cache is expired if it has no deadline or if the clock is past it. -/
theorem isExpired_eq_true :
    c.isExpired now = .ok true ↔ ∀ d, c.deadline = some d → d.Before now := by
  unfold isExpired
  cases c.deadline with
  | none => simp
  | some d =>
    have hsymm : now.comparable d = d.comparable now := Bool.beq_comm ..
    by_cases hc : d.comparable now = true <;> simp [Moment.Before, hsymm, hc]

/-- A cache is not expired if the clock is not past its deadline. -/
theorem isExpired_eq_false :
    c.isExpired now = .ok false ↔ ∃ d, c.deadline = some d ∧ now.UpTo d := by
  unfold isExpired
  cases c.deadline with
  | none => simp
  | some d => by_cases hc : now.comparable d = true <;> simp [Moment.UpTo, hc]

/-- A clear that finds a next midnight takes it for the deadline. -/
theorem deadline_clear {d : Moment} (h : now.nextMidnight? = some d) :
    (c.clear now).1.deadline = some d := by
  rw [clear_fst, h]
  rfl

/-- A refresh that succeeds leaves a deadline that the clock is not past. -/
theorem deadline_refresh {cleared : Bool} (h : (c.refresh now).2 = .ok cleared) :
    ∃ d, (c.refresh now).1.deadline = some d ∧ now.UpTo d := by
  rcases hexp : c.isExpired now with fault | _ | _
  · simp [refresh, hexp] at h
  · have hsame : (c.refresh now).1 = c := refresh_fst_of_ne (by simp [hexp])
    rw [hsame]
    exact isExpired_eq_false.mp hexp
  · -- On the last day the clear would have failed the refresh.
    cases hnext : now.nextMidnight? with
    | none => simp [refresh, hexp, clear, hnext] at h
    | some d =>
      rw [refresh_fst hexp]
      have hfirst := Moment.isFirstMidnightAfter_of_nextMidnight? hnext
      exact ⟨d, deadline_clear hnext, hfirst.before.upTo⟩

/-- A refresh succeeds if the clock can be compared with the deadline and the day is not the last
one. -/
theorem refresh_snd (hlast : ¬now.date.IsLast)
    (hcomparable : ∀ d, c.deadline = some d → now.comparable d = true) :
    ∃ cleared, (c.refresh now).2 = .ok cleared := by
  obtain ⟨midnight, hnext⟩ := Moment.exists_nextMidnight? hlast
  rcases hexp : c.isExpired now with fault | _ | _
  · unfold isExpired at hexp
    split at hexp
    · contradiction
    · rename_i d hd
      rw [if_pos (hcomparable d hd)] at hexp
      contradiction
  · exact ⟨false, by simp only [refresh, hexp]⟩
  · exact ⟨true, by simp only [refresh, hexp, clear, hnext]⟩

end Cache

namespace Machine

variable {K V : Type}

/-- A check whose refresh succeeds lets its call look. -/
theorem check_of_ok {m : Machine K V} {id : Nat} {cleared : Bool}
    (h : (m.cache.refresh m.now).2 = .ok cleared) :
    (m.check id).calls = (m.setPhase id .checked).calls := by
  unfold check
  rcases hr : m.cache.refresh m.now with ⟨cache, fault | cleared'⟩
  · simp [hr] at h
  · rfl

/-- A check whose refresh fails answers its call that the clock failed it. -/
theorem check_of_error {m : Machine K V} {id : Nat} {fault : ClockFault}
    (h : (m.cache.refresh m.now).2 = .error fault) :
    (m.check id).calls = (m.setPhase id (.answered (.clock fault))).calls := by
  unfold check
  rcases hr : m.cache.refresh m.now with ⟨cache, fault' | cleared⟩
  · obtain rfl : fault' = fault := by simpa [hr] using h
    rfl
  · simp [hr] at h

variable [DecidableEq K]

namespace Step

variable {s : Step K V} {m' : Machine K V} {id : Nat} {k : K} {p : Phase V}

/-- A step reads the clock. -/
def Reads (s : Step K V) : Prop := s.action = .clear ∨ ∃ id, s.action = .check id

omit [DecidableEq K] in
/-- What clears has read the clock. -/
theorem Clears.reads (hc : s.Clears) : s.Reads :=
  hc.imp_right fun ⟨id, haction, _⟩ => ⟨id, haction⟩

/-- How a step brings a call to a phase. -/
inductive Brings (s : Step K V) (id : Nat) (k : K) (p : Phase V) : Prop
  | called (hp : p = .called)
  | checked (haction : s.action = .check id) (hcalled : s.before.Stands id k .called)
      (cleared : Bool) (hok : (s.before.cache.refresh s.before.now).2 = .ok cleared)
      (hp : p = .checked)
  | failed (haction : s.action = .check id) (fault : ClockFault)
      (herror : (s.before.cache.refresh s.before.now).2 = .error fault)
      (hp : p = .answered (.clock fault))
  | looked (found : Lookup V) (hlooks : s.Looks id k found) (hp : p = found.phase)
  | landed (f g : Nat) (result : Except Failure (Option V)) (hlands : s.Lands id k f g result)
      (hp : p = .answered (landing s.before.failures result).toOwner)
  | received (f : Nat) (l : Landing V) (hjoined : s.before.Stands id k (.joined f))
      (hp : p = .answered l.toJoined)

/-- A call stands where it stood before a step, or where the step has brought it. -/
theorem LeadsTo.stands_or_brings (h : s.LeadsTo m') (hs : m'.Stands id k p) :
    s.before.Stands id k p ∨ s.Brings id k p := by
  have hstep := h
  obtain ⟨m, a⟩ := s
  unfold LeadsTo at h
  -- Each action sets the phase of one call at most; every other call stands as it did.
  cases a with
  | call parent key =>
    simp only [step?] at h
    split_ifs at h
    injection h with h
    subst h
    obtain ⟨parent', hcall⟩ := hs
    rcases Nat.lt_or_ge id m.calls.length with hlt | hge
    · rw [List.getElem?_append_left hlt] at hcall
      exact .inl ⟨parent', hcall⟩
    · rw [List.getElem?_append_right hge] at hcall
      have hnew := List.mem_of_getElem? hcall
      simp only [List.mem_singleton, Call.mk.injEq] at hnew
      exact .inr (.called hnew.2.2)
  | check j =>
    simp only [step?] at h
    split at h
    · rename_i key parent hcall
      injection h with h
      subst h
      rcases hr : (m.cache.refresh m.now).2 with fault | cleared
      · rw [stands_congr (check_of_error hr), stands_setPhase] at hs
        rcases hs with ⟨rfl, hp, -⟩ | ⟨-, hs⟩
        · exact .inr (.failed rfl fault hr hp)
        · exact .inl hs
      · rw [stands_congr (check_of_ok hr), stands_setPhase] at hs
        rcases hs with ⟨rfl, hp, o, hs⟩ | ⟨-, hs⟩
        · have hcalled : m.Stands id key .called := ⟨parent, hcall⟩
          obtain ⟨rfl, -⟩ := hcalled.unique hs
          exact .inr (.checked rfl hcalled cleared hr hp)
        · exact .inl hs
    · contradiction
  | look j =>
    obtain ⟨key, hlooks⟩ := hstep.looks rfl
    rw [hlooks.eq_look hstep, stands_look] at hs
    rcases hs with ⟨rfl, hp, o, hs⟩ | ⟨-, hs⟩
    · obtain ⟨rfl, -⟩ := hlooks.2.1.unique hs
      exact .inr (.looked _ hlooks hp)
    · exact .inl hs
  | finish j result =>
    obtain ⟨key, f, g, hlands⟩ := hstep.lands rfl
    rw [hlands.eq_finish hstep, stands_finish] at hs
    rcases hs with ⟨rfl, hp, o, hs⟩ | ⟨-, hs⟩
    · obtain ⟨rfl, -⟩ := hlands.2.unique hs
      exact .inr (.landed f g result hlands hp)
    · exact .inl hs
  | receive j =>
    simp only [step?] at h
    split at h
    · rename_i key parent f hcall
      obtain ⟨l, -, rfl⟩ := Option.map_eq_some_iff.mp h
      rcases stands_setPhase.mp hs with ⟨rfl, hp, o, hs⟩ | ⟨-, hs⟩
      · have hjoined : m.Stands id key (.joined f) := ⟨parent, hcall⟩
        obtain ⟨rfl, -⟩ := hjoined.unique hs
        exact .inr (.received f l hjoined hp)
      · exact .inl hs
    · contradiction
  | clear =>
    simp only [step?, Option.some.injEq] at h
    subst h
    obtain ⟨log, heq⟩ := m.clear_eq
    rw [heq] at hs
    exact .inl hs
  | setClock now =>
    simp only [step?, Option.some.injEq] at h
    subst h
    exact .inl hs

end Step

/-! ## Before the first clear -/

variable {m : Machine K V} {past before after : List (Step K V)} {s x : Step K V} {now : Moment}
  {id : Nat} {k : K} {a : Answer V} {d : Moment}

/-- Until the first clear the cache is as it was at the start, and no call has been checked. -/
theorem Runs.idle (h : Runs (start now) past m) (hnever : ∀ s ∈ past, ¬s.Clears) :
    m.cache = .empty ∧ ∀ id k p, m.Stands id k p → p = .called := by
  induction h with
  | refl => exact ⟨rfl, fun _ _ _ hs => absurd hs not_stands_start⟩
  | @step past s m _ hstep ih =>
    obtain ⟨hcache, hcalled⟩ := ih fun s hs => hnever s (List.mem_append_left _ hs)
    have hnow : ¬s.Clears := hnever s (by simp)
    -- A check would clear, for there is no deadline; and nobody who was not checked can do more.
    have hcheck : ∀ id, s.action ≠ .check id := by
      intro id haction
      refine hnow (.inr ⟨id, haction, Cache.isExpired_eq_true.mpr ?_⟩)
      rw [hcache]
      intro d hd
      contradiction
    have hlooks : ∀ {id k found}, ¬s.Looks id k found := by
      intro id k found hl
      have hphase := hcalled _ _ _ hl.2.1
      contradiction
    have hlands : ∀ {id k f g result}, ¬s.Lands id k f g result := by
      intro id k f g result hl
      have hphase := hcalled _ _ _ hl.2
      contradiction
    constructor
    · rcases hstep.cache_cases with ⟨-, heq⟩ | ⟨hclears, -⟩ | ⟨id, k, f, g, hl, -⟩ |
        ⟨id, k, f, g, result, hl, -⟩
      · rw [heq, hcache]
      · exact absurd hclears hnow
      · exact absurd hl hlooks
      · exact absurd hl hlands
    · intro id k p hs
      rcases hstep.stands_or_brings hs with hs | hb
      · exact hcalled id k p hs
      cases hb with
      | called hp => exact hp
      | checked haction => exact absurd haction (hcheck id)
      | failed haction => exact absurd haction (hcheck id)
      | looked found hl => exact absurd hl hlooks
      | landed f g result hl => exact absurd hl hlands
      | received f l hjoined =>
        have hphase := hcalled _ _ _ hjoined
        contradiction

/-! ## The deadline -/

/-- The latest clear of a history: none comes after it. -/
structure LatestClear (past before : List (Step K V)) (c : Step K V) (after : List (Step K V)) :
    Prop where
  split : past = before ++ c :: after
  clears : c.Clears
  latest : ∀ s ∈ after, ¬s.Clears

/-- A step that does not clear leaves the generation and the deadline. -/
theorem Step.LeadsTo.leaves_deadline {m' : Machine K V} (h : s.LeadsTo m') (hc : ¬s.Clears) :
    m'.cache.generation = s.before.cache.generation ∧
      m'.cache.deadline = s.before.cache.deadline := by
  rcases h.cache_cases with ⟨-, heq⟩ | ⟨hclears, -⟩ | ⟨id, k, f, g, hlooks, -⟩ |
    ⟨id, k, f, g, result, -, heq⟩
  · rw [heq]
    exact ⟨rfl, rfl⟩
  · exact absurd hclears hc
  · obtain ⟨-, -, heq⟩ := hlooks.started h
    rw [heq]
    exact ⟨rfl, rfl⟩
  · rw [heq]
    exact ⟨rfl, rfl⟩

/-- Steps that do not clear leave the generation and the deadline. -/
theorem Runs.leaves_deadline {m₀ : Machine K V} (h : Runs m₀ past m)
    (hnever : ∀ s ∈ past, ¬s.Clears) :
    m.cache.generation = m₀.cache.generation ∧ m.cache.deadline = m₀.cache.deadline := by
  induction h with
  | refl => exact ⟨rfl, rfl⟩
  | step _ hstep ih =>
    obtain ⟨hg, hd⟩ := ih fun s hs => hnever s (List.mem_append_left _ hs)
    obtain ⟨hg', hd'⟩ := hstep.leaves_deadline (hnever _ (by simp))
    exact ⟨hg'.trans hg, hd'.trans hd⟩

/-- A history has a latest clear or no clear. -/
theorem Runs.exists_latestClear {m₀ : Machine K V} (h : Runs m₀ past m) :
    (∀ s ∈ past, ¬s.Clears) ∨ ∃ before c after, LatestClear past before c after := by
  induction h with
  | refl => exact .inl fun s hs => absurd hs List.not_mem_nil
  | @step past s m _ _ ih =>
    by_cases hs : s.Clears
    · exact .inr ⟨past, s, [], rfl, hs, fun t ht => absurd ht List.not_mem_nil⟩
    · rcases ih with hnever | ⟨before, c, after, rfl, hclears, hlatest⟩
      · refine .inl fun t ht => ?_
        rcases List.mem_append.mp ht with ht | ht
        · exact hnever t ht
        · exact List.mem_singleton.mp ht ▸ hs
      · refine .inr ⟨before, c, after ++ [s], by simp, hclears, fun t ht => ?_⟩
        rcases List.mem_append.mp ht with ht | ht
        · exact hlatest t ht
        · exact List.mem_singleton.mp ht ▸ hs

/-- After the latest clear the deadline is the first midnight after what the clear read. -/
theorem Runs.deadline_of_latestClear {c : Step K V} (h : Runs (start now) past m)
    (hc : LatestClear past before c after) (hlast : ¬c.before.now.date.IsLast) :
    ∃ d, m.cache.deadline = some d ∧ d.IsFirstMidnightAfter c.before.now := by
  obtain ⟨rfl, hclears, hlatest⟩ := hc
  obtain ⟨-, m', hstep, hafter⟩ := h.split
  obtain ⟨d, hnext⟩ := Moment.exists_nextMidnight? hlast
  refine ⟨d, ?_, Moment.isFirstMidnightAfter_of_nextMidnight? hnext⟩
  rw [(hafter.leaves_deadline hlatest).2, hclears.cache hstep]
  exact Cache.deadline_clear hnext

/-! ## Calls that are checked -/

/-- A check changes the cache as its refresh does, and its call may look if the refresh succeeds. -/
theorem Step.LeadsTo.checks {m' : Machine K V} (h : s.LeadsTo m') (haction : s.action = .check id) :
    ∃ k, s.before.Stands id k .called ∧
      m'.cache = (s.before.cache.refresh s.before.now).1 ∧
      ((∃ fault, (s.before.cache.refresh s.before.now).2 = .error fault ∧
          m'.Stands id k (.answered (.clock fault))) ∨
        ∃ cleared, (s.before.cache.refresh s.before.now).2 = .ok cleared ∧
          m'.Stands id k .checked) := by
  simp only [LeadsTo, haction, step?] at h
  split at h
  · rename_i k parent hcall
    injection h with h
    have hcalled : s.before.Stands id k .called := ⟨parent, hcall⟩
    refine ⟨k, hcalled, h ▸ cache_check s.before id, ?_⟩
    rw [← h]
    rcases hr : (s.before.cache.refresh s.before.now).2 with fault | cleared
    · exact .inl ⟨fault, rfl, (stands_congr (check_of_error hr)).mpr (hcalled.setPhase _)⟩
    · exact .inr ⟨cleared, rfl, (stands_congr (check_of_ok hr)).mpr (hcalled.setPhase _)⟩
  · contradiction

/-- An answered call stays answered. -/
theorem Runs.stays_answered {m₀ : Machine K V} (h : Runs m₀ past m)
    (hs : m₀.Stands id k (.answered a)) : m.Stands id k (.answered a) := by
  induction h with
  | refl => exact hs
  | step _ hstep ih => exact hstep.stays_answered ih

/-- A call that is past its look-up has looked, unless the clock failed it. -/
theorem Runs.looked_of_isPastLook {p : Phase V} (h : Runs (start now) past m)
    (hs : m.Stands id k p) (hp : p.isPastLook = true)
    (hclock : ∀ fault, p ≠ .answered (.clock fault)) : ∃ found, Looked past id k found := by
  induction h generalizing p with
  | refl => exact absurd hs not_stands_start
  | @step past s m _ hstep ih =>
    have hold : ∀ {q : Phase V}, s.before.Stands id k q → q.isPastLook = true →
        (∀ fault, q ≠ .answered (.clock fault)) → ∃ found, Looked (past ++ [s]) id k found := by
      intro q hq hpast hclock
      obtain ⟨found, hl⟩ := ih hq hpast hclock
      exact ⟨found, happened_snoc.mpr (.inl hl)⟩
    rcases hstep.stands_or_brings hs with hs | hb
    · exact hold hs hp hclock
    cases hb with
    | called hcalled =>
      rw [hcalled] at hp
      contradiction
    | checked _ _ _ _ hchecked =>
      rw [hchecked] at hp
      contradiction
    | failed _ fault _ hfailed => exact absurd hfailed (hclock fault)
    | looked found hl _ => exact ⟨found, happened_snoc.mpr (.inr hl)⟩
    | landed f g result hl _ => exact hold hl.2 rfl nofun
    | received f l hjoined _ => exact hold hjoined rfl nofun

/-- A call that has an answer, other than that the clock failed it, looked after its check, which
succeeded. -/
theorem Runs.looks_after_check (h : Runs (start now) (before ++ x :: after) m)
    (hx : x.action = .check id) (hs : m.Stands id k (.answered a))
    (hclock : ∀ fault, a ≠ .clock fault) :
    ∃ m' cleared, x.LeadsTo m' ∧ Runs m' after m ∧
      (x.before.cache.refresh x.before.now).2 = .ok cleared ∧
      m'.cache = (x.before.cache.refresh x.before.now).1 ∧ ∃ found, Looked after id k found := by
  obtain ⟨hbefore, m', hstep, hafter⟩ := h.split
  obtain ⟨k', hcalled, hcache, ⟨fault, -, hfailed⟩ | ⟨cleared, hok, -⟩⟩ := hstep.checks hx
  · have hphase := (hs.unique (hafter.stays_answered hfailed)).2
    injection hphase with hphase
    exact absurd hphase (hclock fault)
  refine ⟨m', cleared, hstep, hafter, hok, hcache, ?_⟩
  obtain ⟨found, hl⟩ := h.looked_of_isPastLook hs rfl fun fault heq =>
    hclock fault (Phase.answered.inj heq)
  rcases happened_append.mp hl with hl | hl
  · -- Had it looked before, it would not have been waiting for its check.
    obtain ⟨p, hp, hpast⟩ := hbefore.stands_of_looked hl
    rw [← (hcalled.unique hp).2] at hpast
    contradiction
  · rcases happened_cons.mp hl with hlooks | hl
    · rw [hlooks.1] at hx
      contradiction
    · exact ⟨found, hl⟩

end Machine
end Stratum
