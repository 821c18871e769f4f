import Mathlib.Tactic.SplitIfs
import Stratum.Proofs.Cache.History

/-!
# Flights over a run

Every flight has one number, one owner, one key and one generation. Its owner computes until the
flight lands, once. The flight table of the cache is at all times the table of the calls that
compute in the current generation, and of one key at most one call computes in a generation.
-/

namespace Stratum.Machine

variable {K V : Type} [DecidableEq K] {m₀ m m' : Machine K V}
  {past before after : List (Step K V)} {s : Step K V} {now : Moment} {id j : Nat} {k i : K}
  {f f' g g' : Nat} {found found' : Lookup V} {result result' : Except Failure (Option V)}
  {l : Landing V}

/-! ## Look-ups -/

/-- A call that has looked is past its look-up. -/
theorem Runs.stands_of_looked (h : Runs m₀ past m) (hl : Looked past id k found) :
    ∃ p, m.Stands id k p ∧ p.isPastLook = true := by
  -- Steps move a call forward only, so that the phase of its look is never undone.
  induction h with
  | refl => exact absurd hl not_happened_nil
  | step _ hs ih =>
    rcases happened_snoc.mp hl with hl | hl
    · obtain ⟨p, hp, hpast⟩ := ih hl
      rcases hs.stays hp hpast with hp' | ⟨f, g, result, rfl, hlands⟩ | ⟨f, l, rfl, -, hp'⟩
      · exact ⟨p, hp', hpast⟩
      · exact ⟨_, hlands.stands hs, rfl⟩
      · exact ⟨_, hp', rfl⟩
    · exact ⟨found.phase, hl.stands hs, by cases found <;> rfl⟩

/-- A call that has looked does not look again. -/
theorem Runs.not_looks_of_looked (h : Runs m₀ past s.before) (hl : Looked past id k found) :
    ¬s.Looks id i found' := by
  intro hlooks
  obtain ⟨p, hp, hpast⟩ := h.stands_of_looked hl
  rw [(hp.unique hlooks.2.1).2] at hpast
  contradiction

/-- A call looks one key up and finds one thing. -/
theorem Runs.looked_unique (h : Runs m₀ past m) (hl : Looked past id k found)
    (hl' : Looked past id i found') : k = i ∧ found = found' := by
  induction h with
  | refl => exact absurd hl not_happened_nil
  | step hrun _ ih =>
    rcases happened_snoc.mp hl with hl | hl <;> rcases happened_snoc.mp hl' with hl' | hl'
    · exact ih hl hl'
    · exact absurd hl' (hrun.not_looks_of_looked hl)
    · exact absurd hl (hrun.not_looks_of_looked hl')
    · exact (hl.unique hl').2

/-! ## Numbers of flights and generations -/

/-- Neither the number of flights nor the generation goes down. -/
theorem Step.LeadsTo.counts_le (h : s.LeadsTo m') :
    s.before.cache.begun ≤ m'.cache.begun ∧ s.before.cache.generation ≤ m'.cache.generation := by
  rcases h.cache_cases with ⟨-, heq⟩ | ⟨-, heq⟩ | ⟨id, k, f, g, hlooks, heq⟩ |
    ⟨id, k, f, g, result, -, heq⟩
  · rw [heq]
    exact ⟨Nat.le_refl _, Nat.le_refl _⟩
  · rw [heq, Cache.clear_fst]
    exact ⟨Nat.le_refl _, Nat.le_succ _⟩
  · rw [heq, Cache.lookup_snd_of_started hlooks.2.2]
    exact ⟨Nat.le_succ _, Nat.le_refl _⟩
  · rw [heq]
    exact ⟨Nat.le_refl _, Nat.le_refl _⟩

/-- A clear starts the next generation. -/
theorem Step.Clears.generation (hc : s.Clears) (h : s.LeadsTo m') :
    m'.cache.generation = s.before.cache.generation + 1 := by
  rw [hc.cache h, Cache.clear_fst]

/-- Over a run neither the number of flights nor the generation goes down. -/
theorem Runs.counts_le (h : Runs m₀ past m) :
    m₀.cache.begun ≤ m.cache.begun ∧ m₀.cache.generation ≤ m.cache.generation := by
  induction h with
  | refl => exact ⟨Nat.le_refl _, Nat.le_refl _⟩
  | step _ hs ih => exact ⟨Nat.le_trans ih.1 hs.counts_le.1, Nat.le_trans ih.2 hs.counts_le.2⟩

/-- A step that registers a flight gives it the next number and the current generation. -/
theorem Step.Looks.started (hl : s.Looks id k (.started f g)) (h : s.LeadsTo m') :
    f = s.before.cache.begun ∧ g = s.before.cache.generation ∧
      m'.cache = { s.before.cache with
        flights := (k, f) :: s.before.cache.flights, begun := s.before.cache.begun + 1 } := by
  obtain ⟨-, -, hf, hg⟩ := Cache.lookup_eq_started.mp hl.2.2
  rw [hl.cache h, Cache.lookup_snd_of_started hl.2.2]
  exact ⟨hf, hg, by rw [hf]⟩

/-- The flights and the generations registered in a run lie between those at its ends. -/
theorem Runs.registered_bounds (h : Runs m₀ past m) (hr : Registered past id k f g) :
    (m₀.cache.begun ≤ f ∧ f < m.cache.begun) ∧
      (m₀.cache.generation ≤ g ∧ g ≤ m.cache.generation) := by
  induction h with
  | refl => exact absurd hr not_happened_nil
  | @step past s m hrun hs ih =>
    rcases happened_snoc.mp hr with hr | hr
    · obtain ⟨hf, hg⟩ := ih hr
      have hle := hs.counts_le
      omega
    · obtain ⟨rfl, rfl, hcache⟩ := hr.started hs
      have hle := hrun.counts_le
      rw [hcache]
      exact ⟨⟨hle.1, Nat.lt_succ_self _⟩, hle.2, Nat.le_refl _⟩

/-- A flight is registered once. -/
theorem Runs.registered_unique (h : Runs m₀ past m) (hr : Registered past id k f g)
    (hr' : Registered past j i f g') : id = j ∧ k = i ∧ g = g' := by
  induction h with
  | refl => exact absurd hr not_happened_nil
  | @step past s m hrun hs ih =>
    -- A flight that is registered now has a higher number than those before.
    have hnew : ∀ {id j k i g g'}, Registered past id k f g → ¬s.Looks j i (.started f g') := by
      intro id j k i g g' hold hlooks
      have hlt := (hrun.registered_bounds hold).1.2
      have heq := (hlooks.started hs).1
      omega
    rcases happened_snoc.mp hr with hr | hr <;> rcases happened_snoc.mp hr' with hr' | hr'
    · exact ih hr hr'
    · exact absurd hr' (hnew hr)
    · exact absurd hr (hnew hr')
    · obtain ⟨rfl, rfl, hfound⟩ := hr.unique hr'
      injection hfound with _ hg
      exact ⟨rfl, rfl, hg⟩

/-- Flights that are registered later have higher numbers. -/
theorem Runs.registered_lt (h : Runs m₀ (before ++ s :: after) m)
    (hr : Registered before id k f g) (hr' : Registered after j i f' g') : f < f' := by
  obtain ⟨hbefore, m', hs, hafter⟩ := h.split
  have hlow := (hbefore.registered_bounds hr).1.2
  have hhigh := (hafter.registered_bounds hr').1.1
  have hle := hs.counts_le.1
  omega

/-! ## Who computes -/

/-- Whoever computes has registered its flight. -/
theorem Runs.registered_of_computing (h : Runs (start now) past m)
    (hs : m.Stands id k (.computing f g)) : Registered past id k f g := by
  induction h with
  | refl => exact absurd hs not_stands_start
  | step _ hstep ih =>
    rcases hstep.computing_iff.mp hs with ⟨hs, -⟩ | hlooks
    · exact happened_snoc.mpr (.inl (ih hs))
    · exact happened_snoc.mpr (.inr hlooks)

/-- A flight is computed by one call. -/
theorem Runs.computing_unique (h : Runs (start now) past m) (hs : m.Stands id k (.computing f g))
    (hs' : m.Stands j i (.computing f g')) : id = j ∧ k = i ∧ g = g' :=
  h.registered_unique (h.registered_of_computing hs) (h.registered_of_computing hs')

/-- The flight table holds the flights of the calls that compute in the current generation. -/
theorem Runs.mem_flights_iff (h : Runs (start now) past m) :
    (k, f) ∈ m.cache.flights ↔ ∃ id, m.Stands id k (.computing f m.cache.generation) := by
  induction h generalizing k f with
  | refl =>
    constructor
    · intro hmem
      exact absurd hmem List.not_mem_nil
    · rintro ⟨id, hs⟩
      exact absurd hs not_stands_start
  | @step past s m hrun hs ih =>
    simp only [hs.computing_iff]
    rcases hs.cache_cases with ⟨hquiet, heq⟩ | ⟨hclears, heq⟩ | ⟨id, j, f', g', hlooks, heq⟩ |
      ⟨id, j, f', g', result, hlands, heq⟩
    · rw [heq, ih]
      simp [hquiet.1, hquiet.2]
    · -- Nobody computes in a generation that has just begun.
      rw [heq, Cache.clear_fst]
      simp only [List.not_mem_nil, false_iff, hclears.not_looks, or_false]
      rintro ⟨id, hcomputing, -⟩
      have hle := (hrun.registered_bounds (hrun.registered_of_computing hcomputing)).2.2
      omega
    · obtain ⟨rfl, rfl, heq⟩ := hlooks.started hs
      have hnew : (∃ x, s.Looks x k (.started f s.before.cache.generation)) ↔
          k = j ∧ f = s.before.cache.begun := by
        constructor
        · rintro ⟨x, hx⟩
          obtain ⟨-, rfl, hfound⟩ := hx.unique hlooks
          injection hfound with hf
          exact ⟨rfl, hf⟩
        · rintro ⟨rfl, rfl⟩
          exact ⟨id, hlooks⟩
      -- The flights are those of before and the new one, on both sides.
      rw [heq]
      simp only [List.mem_cons, Prod.mk.injEq, ih, hlooks.not_lands, not_false_eq_true,
        implies_true, and_true, exists_or, hnew]
      exact or_comm
    · rw [heq, Cache.mem_flights_land, ih]
      constructor
      · rintro ⟨⟨x, hx⟩, hne⟩
        refine ⟨x, .inl ⟨hx, fun result' hx' => ?_⟩⟩
        obtain ⟨-, rfl, rfl, -⟩ := hx'.unique hlands
        exact hne ⟨rfl, rfl⟩
      · rintro ⟨x, ⟨hx, hnot⟩ | hlooks⟩
        · -- The flight that lands is its owner's alone, who would be landing it.
          refine ⟨⟨x, hx⟩, ?_⟩
          rintro ⟨rfl, rfl⟩
          obtain ⟨rfl, -, hg⟩ := hrun.computing_unique hx hlands.2
          exact hnot result (hg ▸ hlands)
        · exact absurd hlands hlooks.not_lands

/-- Of one key one call computes in a generation, with one flight. -/
theorem Runs.computing_eq (h : Runs (start now) past m) (hs : m.Stands id k (.computing f g))
    (hs' : m.Stands j k (.computing f' g)) : id = j ∧ f = f' := by
  induction h with
  | refl => exact absurd hs not_stands_start
  | @step past s m hrun hstep ih =>
    -- Whoever registers a flight found none, so that nobody computes its key in the generation.
    have hnew : ∀ {id j f f'}, s.before.Stands id k (.computing f g) →
        ¬s.Looks j k (.started f' g) := by
      intro id j f f' hcomputing hlooks
      obtain ⟨-, rfl, -⟩ := hlooks.started hstep
      have hmem := hrun.mem_flights_iff.mpr ⟨id, hcomputing⟩
      exact Cache.lookup_ne_none_of_mem hmem (Cache.lookup_eq_started.mp hlooks.2.2).2.1
    rcases hstep.computing_iff.mp hs with ⟨hs, -⟩ | hl <;>
      rcases hstep.computing_iff.mp hs' with ⟨hs', -⟩ | hl'
    · exact ih hs hs'
    · exact absurd hl' (hnew hs)
    · exact absurd hl (hnew hs')
    · obtain ⟨rfl, -, hfound⟩ := hl.unique hl'
      injection hfound with hf
      exact ⟨rfl, hf⟩

/-! ## What has landed -/

/-- A flight that has landed was registered by its call. -/
theorem Runs.registered_of_landed (h : Runs (start now) past m)
    (hl : Landed past id k f g result) : Registered past id k f g := by
  induction h with
  | refl => exact absurd hl not_happened_nil
  | step hrun _ ih =>
    rcases happened_snoc.mp hl with hl | hl
    · exact happened_snoc.mpr (.inl (ih hl))
    · exact happened_snoc.mpr (.inl (hrun.registered_of_computing hl.2))

/-- A call that has registered a flight computes until the flight has landed. -/
theorem Runs.computing_or_landed (h : Runs m₀ past m) (hr : Registered past id k f g) :
    m.Stands id k (.computing f g) ∨ ∃ result, Landed past id k f g result := by
  induction h with
  | refl => exact absurd hr not_happened_nil
  | @step past s m _ hs ih =>
    rcases happened_snoc.mp hr with hr | hr
    · -- Nothing but its landing ends a computation that is under way.
      rcases ih hr with hcomputing | ⟨result, hl⟩
      · by_cases hlands : ∃ result, s.Lands id k f g result
        · obtain ⟨result, hlands⟩ := hlands
          exact .inr ⟨result, happened_snoc.mpr (.inr hlands)⟩
        · exact .inl (hs.computing_iff.mpr (.inl ⟨hcomputing, not_exists.mp hlands⟩))
      · exact .inr ⟨result, happened_snoc.mpr (.inl hl)⟩
    · exact .inl (hs.computing_iff.mpr (.inr hr))

/-- A call whose flight has landed is answered. -/
theorem Runs.exists_answer_of_landed (h : Runs m₀ past m) (hl : Landed past id k f g result) :
    ∃ a, m.Stands id k (.answered a) := by
  induction h with
  | refl => exact absurd hl not_happened_nil
  | step _ hs ih =>
    rcases happened_snoc.mp hl with hl | hl
    · obtain ⟨a, ha⟩ := ih hl
      exact ⟨a, hs.stays_answered ha⟩
    · exact ⟨_, hl.stands hs⟩

/-- A flight that is being computed has not landed. -/
theorem Runs.not_landed_of_computing (h : Runs (start now) past m)
    (hs : m.Stands id k (.computing f g)) : ¬Landed past j i f g' result := by
  intro hl
  obtain ⟨rfl, -, -⟩ :=
    h.registered_unique (h.registered_of_computing hs) (h.registered_of_landed hl)
  obtain ⟨a, ha⟩ := h.exists_answer_of_landed hl
  have hphase := (hs.unique ha).2
  contradiction

/-- What is known to have landed is what a computation ended with. -/
theorem Runs.landed_of_lookup (h : Runs (start now) past m) (hl : m.landed.lookup f = some l) :
    ∃ id k g n result, Landed past id k f g result ∧ l = landing n result := by
  induction h with
  | refl => simp [start] at hl
  | @step past s m _ hs ih =>
    have hkeep : s.before.landed.lookup f = some l →
        ∃ id k g n result, Landed (past ++ [s]) id k f g result ∧ l = landing n result := by
      intro hl
      obtain ⟨id, k, g, n, result, hlanded, heq⟩ := ih hl
      exact ⟨id, k, g, n, result, happened_snoc.mpr (.inl hlanded), heq⟩
    rcases hs.landed_cases with heq | ⟨id, k, f', g, result, hlands, heq⟩
    · exact hkeep (heq ▸ hl)
    · rw [heq, Cache.lookup_cons_ite] at hl
      split_ifs at hl with hf
      · subst hf
        injection hl with hl
        exact ⟨id, k, g, _, result, happened_snoc.mpr (.inr hlands), hl.symm⟩
      · exact hkeep hl

/-- What a flight has landed with stays. -/
theorem Runs.landed_stays (h : Runs (start now) past s.before) (hs : s.LeadsTo m')
    (hl : s.before.landed.lookup f = some l) : m'.landed.lookup f = some l := by
  rcases hs.landed_cases with heq | ⟨id, k, f', g, result, hlands, heq⟩
  · rw [heq, hl]
  · -- What lands now was computed up to now, so that it is a flight that had not landed.
    rw [heq, Cache.lookup_cons_ite, if_neg, hl]
    rintro rfl
    obtain ⟨_, _, _, _, _, hlanded, -⟩ := h.landed_of_lookup hl
    exact h.not_landed_of_computing hlands.2 hlanded

/-- What a flight has landed with is known, and its call is answered with it. -/
theorem Runs.answered_of_landed (h : Runs (start now) past m)
    (hl : Landed past id k f g result) :
    ∃ n, m.landed.lookup f = some (landing n result) ∧
      m.Stands id k (.answered (landing n result).toOwner) := by
  induction h with
  | refl => exact absurd hl not_happened_nil
  | @step past s m hrun hs ih =>
    rcases happened_snoc.mp hl with hl | hl
    · obtain ⟨n, hlookup, hanswered⟩ := ih hl
      exact ⟨n, hrun.landed_stays hs hlookup, hs.stays_answered hanswered⟩
    · refine ⟨s.before.failures, ?_, hl.stands hs⟩
      rw [hl.landed hs, List.lookup_cons_self]

/-- A flight lands once. -/
theorem Runs.landed_unique (h : Runs (start now) past m) (hl : Landed past id k f g result)
    (hl' : Landed past id k f g result') : result = result' := by
  obtain ⟨n, hlookup, -⟩ := h.answered_of_landed hl
  obtain ⟨n', hlookup', -⟩ := h.answered_of_landed hl'
  rw [hlookup] at hlookup'
  injection hlookup' with heq
  exact result_eq_of_landing_eq heq

/-! ## Who waits -/

/-- A call that found a value is answered with it. -/
theorem Runs.answered_of_hit {v : V} (h : Runs m₀ past m) (hl : Looked past id k (.hit v)) :
    m.Stands id k (.answered (.value v)) := by
  induction h with
  | refl => exact absurd hl not_happened_nil
  | step _ hs ih =>
    rcases happened_snoc.mp hl with hl | hl
    · exact hs.stays_answered (ih hl)
    · exact hl.stands hs

/-- A call joins the flight of another call that computes its key in the current generation. -/
theorem Runs.computing_of_joins (h : Runs (start now) past s.before)
    (hl : s.Looks id k (.joined f)) :
    ∃ owner, s.before.Stands owner k (.computing f s.before.cache.generation) :=
  h.mem_flights_iff.mp (Cache.mem_of_lookup (Cache.lookup_eq_joined.mp hl.2.2).2)

/-- A call that waits waits for a flight of its key. -/
theorem Runs.registered_of_joined (h : Runs (start now) past m) (hs : m.Stands id k (.joined f)) :
    ∃ owner g, Registered past owner k f g := by
  induction h with
  | refl => exact absurd hs not_stands_start
  | @step past s m hrun hstep ih =>
    rcases hstep.of_hasFlight hs rfl with hs | ⟨found, hlooks, hphase⟩
    · obtain ⟨owner, g, hr⟩ := ih hs
      exact ⟨owner, g, happened_snoc.mpr (.inl hr)⟩
    · cases found with
      | joined f' =>
        injection hphase with hf
        subst hf
        obtain ⟨owner, hcomputing⟩ := hrun.computing_of_joins hlooks
        exact ⟨owner, _, happened_snoc.mpr (.inl (hrun.registered_of_computing hcomputing))⟩
      | hit v => contradiction
      | started f' g' => contradiction

/-- A call that joined a flight waits for it until it is answered with what the flight landed
with. -/
theorem Runs.stands_of_joins (h : Runs (start now) past m) (hl : Looked past id k (.joined f)) :
    m.Stands id k (.joined f) ∨
      ∃ l, m.landed.lookup f = some l ∧ m.Stands id k (.answered l.toJoined) := by
  induction h with
  | refl => exact absurd hl not_happened_nil
  | step hrun hs ih =>
    rcases happened_snoc.mp hl with hl | hl
    · rcases ih hl with hjoined | ⟨l, hlookup, hanswered⟩
      · rcases hs.stays hjoined rfl with hjoined | ⟨_, _, _, hp, -⟩ | ⟨f', l, hp, hlookup, ha⟩
        · exact .inl hjoined
        · contradiction
        · injection hp with hf
          subst hf
          exact .inr ⟨l, hrun.landed_stays hs hlookup, ha⟩
      · exact .inr ⟨l, hrun.landed_stays hs hlookup, hs.stays_answered hanswered⟩
    · exact .inl (hl.stands hs)

/-- A flight that a call joined was registered under the key of the call. -/
theorem Runs.registered_of_joins (h : Runs (start now) past m)
    (hl : Looked past id k (.joined f)) : ∃ owner g, Registered past owner k f g := by
  obtain ⟨s, hs, hlooks⟩ := hl
  obtain ⟨before, after, rfl⟩ := List.append_of_mem hs
  obtain ⟨hrun, -⟩ := h.split
  obtain ⟨owner, hcomputing⟩ := hrun.computing_of_joins hlooks
  exact ⟨owner, _, happened_append.mpr (.inl (hrun.registered_of_computing hcomputing))⟩

/-- A call that joined a flight is answered with what that flight landed with. -/
theorem Runs.landed_of_joins {a : Answer V} (h : Runs (start now) past m)
    (hl : Looked past id k (.joined f)) (ha : m.Stands id i (.answered a)) :
    ∃ owner g n result, Landed past owner k f g result ∧
      m.landed.lookup f = some (landing n result) ∧ a = (landing n result).toJoined := by
  rcases h.stands_of_joins hl with hjoined | ⟨l, hlookup, hanswered⟩
  · have hphase := (ha.unique hjoined).2
    contradiction
  · have hphase := (ha.unique hanswered).2
    injection hphase with hphase
    obtain ⟨owner, k', g, n, result, hlanded, rfl⟩ := h.landed_of_lookup hlookup
    -- The flight has one number, so that its key is the one that the call looked up.
    obtain ⟨owner', g', hr⟩ := h.registered_of_joins hl
    obtain ⟨rfl, rfl, rfl⟩ := h.registered_unique (h.registered_of_landed hlanded) hr
    exact ⟨owner, g, n, result, hlanded, hlookup, hphase⟩

end Stratum.Machine
