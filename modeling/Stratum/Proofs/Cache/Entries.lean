import Stratum.Proofs.Cache.Flights

/-!
# Entries over a run

An entry is the value of a computation of the current generation, and every such value is an entry
until the next clear. While a key is computed in the current generation it has no entry, so that no
entry is ever overwritten.
-/

namespace Stratum.Machine

variable {K V : Type} [DecidableEq K] {m m' : Machine K V} {past : List (Step K V)} {s : Step K V}
  {now : Moment} {id : Nat} {k : K} {f : Nat} {v : V}

/-- A step leaves the entries and the generation alone, or clears, or lands a value of the current
generation. -/
theorem Step.LeadsTo.entries_cases (h : s.LeadsTo m') :
    ((∀ id k f v, ¬s.Lands id k f s.before.cache.generation (.ok (some v))) ∧
        m'.cache.generation = s.before.cache.generation ∧
        m'.cache.entries = s.before.cache.entries) ∨
      (s.Clears ∧ m'.cache.entries = []) ∨
      ∃ id k f v, s.Lands id k f s.before.cache.generation (.ok (some v)) ∧
        m'.cache.generation = s.before.cache.generation ∧
        m'.cache.entries = Cache.putEntry k v s.before.cache.entries := by
  rcases h.cache_cases with ⟨hquiet, heq⟩ | ⟨hclears, heq⟩ | ⟨id, k, f, g, hlooks, -⟩ |
    ⟨id, k, f, g, result, hlands, heq⟩
  · refine .inl ⟨fun _ _ _ _ => hquiet.2 _ _ _ _ _, ?_⟩
    rw [heq]
    exact ⟨rfl, rfl⟩
  · rw [heq, Cache.clear_fst]
    exact .inr (.inl ⟨hclears, rfl⟩)
  · obtain ⟨-, -, heq⟩ := hlooks.started h
    rw [heq]
    exact .inl ⟨fun _ _ _ _ => hlooks.not_lands, rfl, rfl⟩
  · -- A landing matters if it has a value and no clear came since its flight was registered.
    by_cases hvalue : ∃ v, result = .ok (some v) ∧ g = s.before.cache.generation
    · obtain ⟨v, rfl, rfl⟩ := hvalue
      exact .inr (.inr ⟨id, k, f, v, hlands, by rw [heq]; rfl, by rw [heq]; exact if_pos rfl⟩)
    · refine .inl ⟨?_, by rw [heq]; rfl, ?_⟩
      · intro j i f' v hlands'
        obtain ⟨-, -, -, hg, hresult⟩ := hlands.unique hlands'
        exact hvalue ⟨v, hresult, hg⟩
      · rcases s.before.cache.entries_land_cases k f g (kept result) with hsame | ⟨v, hkept, hg⟩
        · rw [heq, hsame]
        · exact absurd ⟨v, kept_eq_some.mp hkept, hg⟩ hvalue

/-- A key that is computed in the current generation has no entry. -/
theorem Runs.lookup_of_computing (h : Runs (start now) past m)
    (hs : m.Stands id k (.computing f m.cache.generation)) : m.cache.entries.lookup k = none := by
  induction h generalizing id f with
  | refl => exact absurd hs not_stands_start
  | @step past s m hrun hstep ih =>
    rcases hstep.entries_cases with ⟨-, hg, heq⟩ | ⟨-, heq⟩ | ⟨j, i, f', v, hlands, hg, heq⟩
    · rw [heq]
      rcases hstep.computing_iff.mp hs with ⟨hs, -⟩ | hlooks
      · exact ih (hg ▸ hs)
      · exact (Cache.lookup_eq_started.mp hlooks.2.2).1
    · rw [heq]
      rfl
    · -- What lands is of another key, for of this one the call that computes does not land.
      rcases hstep.computing_iff.mp hs with ⟨hs, hnot⟩ | hlooks
      · rw [hg] at hs hnot
        have hne : k ≠ i := by
          rintro rfl
          obtain ⟨rfl, rfl⟩ := hrun.computing_eq hs hlands.2
          exact hnot _ hlands
        rw [heq, Cache.lookup_putEntry, if_neg hne]
        exact ih hs
      · exact absurd hlands hlooks.not_lands

/-- A value that landed in the current generation is an entry. -/
theorem Runs.lookup_of_landed (h : Runs (start now) past m)
    (hl : Landed past id k f m.cache.generation (.ok (some v))) :
    m.cache.entries.lookup k = some v := by
  induction h with
  | refl => exact absurd hl not_happened_nil
  | @step past s m hrun hstep ih =>
    -- A step lands no value, empties the cache or puts one entry.
    rcases hstep.entries_cases with ⟨hnot, hg, heq⟩ | ⟨hclears, -⟩ | ⟨j, i, f', w, hlands, hg, heq⟩
    · rw [hg] at hl
      rcases happened_snoc.mp hl with hl | hl
      · rw [heq]
        exact ih hl
      · exact absurd hl (hnot id k f v)
    · rcases happened_snoc.mp hl with hl | hl
      · have hle := (hrun.registered_bounds (hrun.registered_of_landed hl)).2.2
        have hnext := hclears.generation hstep
        omega
      · exact absurd hl hclears.not_lands
    · rw [hg] at hl
      rw [heq, Cache.lookup_putEntry]
      rcases happened_snoc.mp hl with hl | hl
      · -- What lands is of another key, for this one has its entry already.
        have hentry := ih hl
        rw [if_neg, hentry]
        rintro rfl
        rw [hrun.lookup_of_computing hlands.2] at hentry
        contradiction
      · obtain ⟨-, rfl, -, -, hresult⟩ := hl.unique hlands
        injection hresult with hresult
        rw [if_pos rfl, hresult]

/-- An entry is a value that landed in the current generation. -/
theorem Runs.landed_of_mem (h : Runs (start now) past m) (hmem : (k, v) ∈ m.cache.entries) :
    ∃ id f, Landed past id k f m.cache.generation (.ok (some v)) := by
  induction h with
  | refl => exact absurd hmem List.not_mem_nil
  | @step past s m _ hstep ih =>
    have hold : (k, v) ∈ s.before.cache.entries →
        ∃ id f, Landed (past ++ [s]) id k f s.before.cache.generation (.ok (some v)) := by
      intro hmem
      obtain ⟨id, f, hl⟩ := ih hmem
      exact ⟨id, f, happened_snoc.mpr (.inl hl)⟩
    rcases hstep.entries_cases with ⟨-, hg, heq⟩ | ⟨-, heq⟩ | ⟨j, i, f', w, hlands, hg, heq⟩
    · rw [hg]
      exact hold (heq ▸ hmem)
    · rw [heq] at hmem
      exact absurd hmem List.not_mem_nil
    · rw [hg]
      rcases Cache.mem_putEntry (heq ▸ hmem) with ⟨rfl, rfl⟩ | hmem
      · exact ⟨j, f', happened_snoc.mpr (.inr hlands)⟩
      · exact hold hmem

end Stratum.Machine
