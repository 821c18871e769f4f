import Stratum.Proofs.Cache.Entries

/-!
# One flight at a time

In a generation a key is computed by one call at a time, and computed again only if every
computation before came to nothing or failed. Whoever looks the key up meanwhile joins the one
flight, computes nothing, and is answered with what the flight lands with.
-/

namespace Stratum
namespace Machine

variable {K V : Type} [DecidableEq K] {m : Machine K V} {past before : List (Step K V)}
  {s : Step K V} {now : Moment} {id id' : Nat} {k : K} {f f' g : Nat} {found : Lookup V} {v v' : V}

/-- A call that registers a flight comes after all flights of its key that were registered in the
generation have landed, none of them with a value. -/
theorem Runs.landed_of_registers (h : Runs (start now) before s.before)
    (hlooks : s.Looks id k (.started f g)) (hr : Registered before id' k f' g) :
    ∃ result, Landed before id' k f' g result ∧ (result = .ok none ∨ ∃ e, result = .error e) := by
  obtain ⟨hentries, hflights, -, rfl⟩ := Cache.lookup_eq_started.mp hlooks.2.2
  rcases h.computing_or_landed hr with hcomputing | ⟨result, hl⟩
  · have hmem := h.mem_flights_iff.mpr ⟨id', hcomputing⟩
    exact absurd hflights (Cache.lookup_ne_none_of_mem hmem)
  · refine ⟨result, hl, ?_⟩
    rcases result with e | _ | v
    · exact .inr ⟨e, rfl⟩
    · exact .inl rfl
    · have hentry := h.lookup_of_landed hl
      rw [hentries] at hentry
      contradiction

/-- A call that registers a flight of a key comes before no flight of the key with a value that was
registered in the generation. -/
theorem Runs.not_landed_value (h : Runs (start now) (before ++ s :: past) m)
    (hlooks : s.Looks id k (.started f g)) (hr : Registered before id' k f' g) :
    ¬Landed (before ++ s :: past) id' k f' g (.ok (some v)) := by
  intro hl
  obtain ⟨result, hl', hresult⟩ := h.split.1.landed_of_registers hlooks hr
  obtain rfl := h.landed_unique hl (happened_append.mpr (.inl hl'))
  rcases hresult with hresult | ⟨e, hresult⟩ <;> simp at hresult

/-- At most one flight of a key that was registered in a generation lands with a value. -/
theorem Runs.value_unique (h : Runs (start now) past m)
    (hl : Landed past id k f g (.ok (some v))) (hl' : Landed past id' k f' g (.ok (some v'))) :
    id = id' ∧ f = f' ∧ v = v' := by
  obtain ⟨s, hs, hlooks⟩ := h.registered_of_landed hl
  obtain ⟨t, ht, hlooks'⟩ := h.registered_of_landed hl'
  -- Were they registered one after the other, the earlier one would have come to nothing.
  rcases eq_or_before_of_mem hs ht with rfl | ⟨before, after, rfl, hmem⟩ |
    ⟨before, after, rfl, hmem⟩
  · obtain ⟨rfl, -, hfound⟩ := hlooks.unique hlooks'
    injection hfound with hf
    subst hf
    have hresult := h.landed_unique hl hl'
    injection hresult with hresult
    injection hresult with hv
    exact ⟨rfl, rfl, hv⟩
  · exact absurd hl (h.not_landed_value hlooks' ⟨s, hmem, hlooks⟩)
  · exact absurd hl' (h.not_landed_value hlooks ⟨t, hmem, hlooks'⟩)

/-- A call that looks while a flight of its key is under way joins the flight. -/
theorem Runs.joins_of_registered (h : Runs (start now) before s.before)
    (hlooks : s.Looks id k found) (hr : Registered before id' k f s.before.cache.generation)
    (hl : ∀ result, ¬Landed before id' k f s.before.cache.generation result) :
    found = .joined f := by
  rcases h.computing_or_landed hr with hcomputing | ⟨result, hl'⟩
  · have hmem := h.mem_flights_iff.mpr ⟨id', hcomputing⟩
    obtain ⟨f', hf'⟩ := Option.ne_none_iff_exists'.mp (Cache.lookup_ne_none_of_mem hmem)
    obtain ⟨id'', hcomputing'⟩ := h.mem_flights_iff.mp (Cache.mem_of_lookup hf')
    obtain ⟨-, rfl⟩ := h.computing_eq hcomputing hcomputing'
    rw [← hlooks.2.2]
    exact Cache.lookup_eq_joined.mpr ⟨h.lookup_of_computing hcomputing, hf'⟩
  · exact absurd hl' (hl result)

/-- A key is computed by one call at a time in a generation, and again only after failures; at most
one of its flights lands with a value; and whoever looks meanwhile joins and computes nothing. -/
theorem Runs.single_flight (h : Runs (start now) past m) :
    (∀ k g id id' f f', m.Stands id k (.computing f g) → m.Stands id' k (.computing f' g) →
      id = id' ∧ f = f') ∧
    (∀ before s after, past = before ++ s :: after →
      ∀ id k f g, s.Looks id k (.started f g) → ∀ id' f', Registered before id' k f' g →
        ∃ result, Landed before id' k f' g result ∧
          (result = .ok none ∨ ∃ e, result = .error e)) ∧
    (∀ k g id id' f f' v v', Landed past id k f g (.ok (some v)) →
      Landed past id' k f' g (.ok (some v')) → id = id' ∧ f = f' ∧ v = v') ∧
    ∀ before s after, past = before ++ s :: after →
      ∀ owner k f, Registered before owner k f s.before.cache.generation →
        (∀ result, ¬Landed before owner k f s.before.cache.generation result) →
        ∀ id found, s.Looks id k found →
          found = .joined f ∧ (∀ k' f' g', ¬Registered past id k' f' g') ∧
            (m.Stands id k (.joined f) ∨
              ∃ l, m.landed.lookup f = some l ∧ m.Stands id k (.answered l.toJoined)) := by
  refine ⟨?_, ?_, ?_, ?_⟩
  · intro k g id id' f f' hs hs'
    exact h.computing_eq hs hs'
  · rintro before s after rfl id k f g hlooks id' f' hr
    exact h.split.1.landed_of_registers hlooks hr
  · intro k g id id' f f' v v' hl hl'
    exact h.value_unique hl hl'
  · rintro before s after rfl owner k f hr hl id found hlooks
    -- A look finds one thing only, so that a call which has joined registers no flight of its own.
    obtain rfl := h.split.1.joins_of_registered hlooks hr hl
    have hlooked : Looked (before ++ s :: after) id k (.joined f) :=
      ⟨s, List.mem_append_right before List.mem_cons_self, hlooks⟩
    refine ⟨rfl, ?_, h.stands_of_joins hlooked⟩
    intro k' f' g' hr'
    have hfound := (h.looked_unique hlooked hr').2
    contradiction

end Machine

namespace Retry

/-- An error that can be copied. -/
def refused : Failure := .host ⟨.value, "no"⟩

/-- A call computes and a second one joins it; the computation fails; a third call computes and a
fourth one joins it; the computation ends with a value. -/
def actions : List (Action String Nat) := [
  .call none "k", .check 0, .look 0, .call none "k", .check 1, .look 1, .finish 0 (.error refused),
  .receive 1, .call none "k", .check 2, .look 2, .call none "k", .check 3, .look 3,
  .finish 2 (.ok (some 8)), .receive 3]

/-- The steps taken. -/
def past : List (Machine.Step String Nat) := Machine.trace .noon actions

/-- The machine that they lead to. -/
def final : Machine String Nat := actions.foldl Machine.step .noon

/-- The second computation comes after the first one has failed, and the call that joins it computes
nothing. -/
theorem second_flight_after_failure :
    final.answer? 1 = some (.copied refused 0) ∧ final.answer? 3 = some (.value 8) ∧
      (∃ result, Machine.Landed (past.take 10) 0 "k" 0 1 result ∧
        (result = .ok none ∨ ∃ e, result = .error e)) ∧
      ∀ k f g, ¬Machine.Registered past 3 k f g := by
  have hrun : Machine.Runs .noon past final := Machine.runs_trace rfl
  have hfirst : Machine.Registered (past.take 10) 0 "k" 0 1 :=
    ⟨(past.take 10)[2], List.getElem_mem _, rfl, ⟨none, rfl⟩, rfl⟩
  have hsecond : Machine.Registered (past.take 13) 2 "k" 1 1 :=
    ⟨(past.take 13)[10], List.getElem_mem _, rfl, ⟨none, rfl⟩, rfl⟩
  have hflying : ∀ result, ¬Machine.Landed (past.take 13) 2 "k" 1 1 result := by
    rintro result ⟨s, hs, haction, -⟩
    have hactions : (past.take 13).map (·.action) = actions.take 13 := rfl
    have hmem : Action.finish 2 result ∈ actions.take 13 :=
      hactions ▸ List.mem_map.mpr ⟨s, hs, haction⟩
    simp [actions] at hmem
  refine ⟨rfl, rfl, ?_, ?_⟩
  · exact hrun.single_flight.2.1 (past.take 10) past[10] (past.drop 11) rfl 2 "k" 1 1
      ⟨rfl, ⟨none, rfl⟩, rfl⟩ 0 0 hfirst
  · exact (hrun.single_flight.2.2.2 (past.take 13) past[13] (past.drop 14) rfl 2 "k" 1 hsecond
      hflying 3 (.joined 1) ⟨rfl, ⟨none, rfl⟩, rfl⟩).2.1

end Retry
end Stratum
