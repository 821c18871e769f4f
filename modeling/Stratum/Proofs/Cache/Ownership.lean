import Mathlib.Logic.ExistsUnique
import Stratum.Proofs.Cache.SingleFlight

/-!
# Flights and their owners

A flight in the table has one owner, who computes it, and whoever waits waits for a flight that is
being computed or has landed. A landing takes its own flight away and no other, and one without a
value changes nothing else. After a computation that came to nothing or failed, a call for its key
computes afresh, unless it finds what a computation left that was registered meanwhile.
-/

namespace Stratum
namespace Machine

variable {K V : Type} [DecidableEq K] {m m' : Machine K V} {past before between : List (Step K V)}
  {s : Step K V} {now : Moment} {id owner : Nat} {k : K} {f f' g : Nat} {found : Lookup V} {v : V}
  {result : Except Failure (Option V)}

/-- A result leaves no value if it is nothing or a failure. -/
theorem kept_eq_none : kept result = none ↔ result = .ok none ∨ ∃ e, result = .error e := by
  rcases result with e | _ | v <;> simp [kept]

/-- A look leaves the entries, the generation and the deadline alone. -/
theorem Step.Looks.leaves (hlooks : s.Looks id k found) (h : s.LeadsTo m') :
    m'.cache.entries = s.before.cache.entries ∧
      m'.cache.generation = s.before.cache.generation ∧
      m'.cache.deadline = s.before.cache.deadline := by
  rw [hlooks.cache h]
  rcases s.before.cache.lookup_cases k with ⟨v, -, heq⟩ | ⟨f, -, -, heq⟩ | ⟨-, -, heq⟩ <;>
    rw [heq] <;> exact ⟨rfl, rfl, rfl⟩

/-- A landing without a value leaves everything but the flights alone. -/
theorem Step.Lands.leaves (hlands : s.Lands id k f g result) (h : s.LeadsTo m')
    (hkept : kept result = none) :
    m'.cache = { s.before.cache with flights := m'.cache.flights } := by
  rw [hlands.cache h, hkept]
  rfl

/-- A landing takes its own flight away and no other, of whichever key. -/
theorem Runs.mem_flights_of_lands (h : Runs (start now) past s.before)
    (hlands : s.Lands id k f g result) (hs : s.LeadsTo m') {k' : K} :
    (k', f') ∈ m'.cache.flights ↔ (k', f') ∈ s.before.cache.flights ∧ f' ≠ f := by
  rw [hlands.cache hs, Cache.mem_flights_land, and_congr_right_iff]
  intro hmem
  -- A flight has one number and one key, so that the number alone tells it from the others.
  refine not_congr ⟨And.right, ?_⟩
  rintro rfl
  obtain ⟨id', hcomputing⟩ := h.mem_flights_iff.mp hmem
  obtain ⟨-, rfl, -⟩ := h.computing_unique hcomputing hlands.2
  exact ⟨rfl, rfl⟩

/-! ## After a failure -/

/-- A flight of the key of one that landed without a value, if it is of the current generation and
did not land so itself, was registered since. -/
theorem Runs.registered_since (h : Runs (start now) (before ++ s :: between) m)
    (hlooks : s.Looks id k (.started f g)) (hl : Landed between id k f g result)
    (hkept : kept result = none)
    (hr : Registered (before ++ s :: between) owner k f' m.cache.generation)
    (hnot : ∀ result, kept result = none →
      ¬Landed (before ++ s :: between) owner k f' m.cache.generation result) :
    Registered between owner k f' m.cache.generation := by
  obtain ⟨hrun, m₁, hs, hafter⟩ := h.split
  rcases happened_append.mp hr with hr | hr
  · -- It would be of the generation of the failed flight, and have landed without a value.
    have hg : m.cache.generation = g := by
      have hle := (hrun.registered_bounds hr).2.2
      have hstep := hs.counts_le.2
      have hend := hafter.counts_le.2
      obtain ⟨-, rfl, -⟩ := hlooks.started hs
      omega
    rw [hg] at hr hnot
    obtain ⟨result', hl', hresult'⟩ := hrun.landed_of_registers hlooks hr
    exact absurd (happened_append.mpr (.inl hl')) (hnot result' (kept_eq_none.mpr hresult'))
  · rcases happened_cons.mp hr with hlooks' | hr
    · obtain ⟨rfl, -, hfound⟩ := hlooks.unique hlooks'
      injection hfound with hf hg
      subst hf
      rw [← hg] at hnot
      exact absurd (happened_append.mpr (.inr (happened_cons.mpr (.inr hl)))) (hnot result hkept)
    · exact hr

/-- After a flight has landed without a value, a look at its key starts a flight, or joins one that
was registered since, or hits a value of one that was. -/
theorem Runs.looks_after_failure {t : Step K V}
    (h : Runs (start now) (before ++ s :: between) t.before)
    (hlooks : s.Looks id k (.started f g)) (hl : Landed between id k f g result)
    (hkept : kept result = none) {id' : Nat} (hlooks' : t.Looks id' k found) :
    (∃ f', found = .started f' t.before.cache.generation) ∨
      ∃ owner f', Registered between owner k f' t.before.cache.generation ∧
        (found = .joined f' ∨
          ∃ v, found = .hit v ∧
            Landed between owner k f' t.before.cache.generation (.ok (some v))) := by
  cases found with
  | started f' g' =>
    obtain ⟨-, -, -, rfl⟩ := Cache.lookup_eq_started.mp hlooks'.2.2
    exact .inl ⟨f', rfl⟩
  | joined f' =>
    obtain ⟨owner, hcomputing⟩ := h.computing_of_joins hlooks'
    have hr := h.registered_since hlooks hl hkept (h.registered_of_computing hcomputing)
      fun _ _ => h.not_landed_of_computing hcomputing
    exact .inr ⟨owner, f', hr, .inl rfl⟩
  | hit v =>
    obtain ⟨owner, f', hlanded⟩ :=
      h.landed_of_mem (Cache.mem_of_lookup (Cache.lookup_eq_hit.mp hlooks'.2.2))
    have hr : Registered between owner k f' t.before.cache.generation := by
      refine h.registered_since hlooks hl hkept (h.registered_of_landed hlanded) ?_
      intro result' hkept' hlanded'
      obtain rfl := h.landed_unique hlanded hlanded'
      contradiction
    refine .inr ⟨owner, f', hr, .inr ⟨v, rfl, ?_⟩⟩
    -- What landed before was registered before, with a lower number.
    rcases happened_append.mp hlanded with hlanded | hlanded
    · have hold := h.split.1.registered_of_landed hlanded
      exact absurd (h.registered_lt hold hr) (Nat.lt_irrefl f')
    · rcases happened_cons.mp hlanded with hlands | hlanded
      · exact absurd hlands hlooks.not_lands
      · exact hlanded

/-- A flight in the table has one owner, who computes it, and a call that waits waits for a flight
that is being computed or has landed. A landing takes its own flight away alone, and one without a
value leaves the rest as it is, as looks do. After it a look at the key starts a flight, unless one
that was registered since is under way or has left its value; and no look joins a flight that has
landed. -/
theorem Runs.flights_owned (h : Runs (start now) past m) :
    (∀ k f, (k, f) ∈ m.cache.flights → ∃! id, ∃ g, m.Stands id k (.computing f g)) ∧
    (∀ id k f, m.Stands id k (.joined f) → ∃ owner g, Registered past owner k f g ∧
      (m.Stands owner k (.computing f g) ∨
        ∃ result n, Landed past owner k f g result ∧
          m.landed.lookup f = some (landing n result))) ∧
    (∀ id result m', m.step? (.finish id result) = some m' → ∃ k f g,
      m.Stands id k (.computing f g) ∧
      (∀ k' f', (k', f') ∈ m'.cache.flights ↔ (k', f') ∈ m.cache.flights ∧ f' ≠ f) ∧
      (result = .ok none ∨ (∃ e, result = .error e) →
        m'.cache = { m.cache with flights := m'.cache.flights })) ∧
    (∀ id m', m.step? (.look id) = some m' →
      m'.cache.entries = m.cache.entries ∧ m'.cache.generation = m.cache.generation ∧
        m'.cache.deadline = m.cache.deadline) ∧
    (∀ before s between t after, past = before ++ s :: between ++ t :: after →
      ∀ id k f g result, s.Looks id k (.started f g) → Landed between id k f g result →
        result = .ok none ∨ (∃ e, result = .error e) →
        ∀ id' found, t.Looks id' k found →
          (∃ f', found = .started f' t.before.cache.generation) ∨
            ∃ owner f', Registered between owner k f' t.before.cache.generation ∧
              (found = .joined f' ∨
                ∃ v, found = .hit v ∧
                  Landed between owner k f' t.before.cache.generation (.ok (some v)))) ∧
    ∀ before t after, past = before ++ t :: after → ∀ id k f, t.Looks id k (.joined f) →
      (∃ owner g, t.before.Stands owner k (.computing f g)) ∧
        ∀ id' k' g' result, ¬Landed before id' k' f g' result := by
  refine ⟨?_, ?_, ?_, ?_, ?_, ?_⟩
  · intro k f hmem
    obtain ⟨id, hs⟩ := h.mem_flights_iff.mp hmem
    refine ⟨id, ⟨_, hs⟩, ?_⟩
    rintro id' ⟨g, hs'⟩
    exact (h.computing_unique hs' hs).1
  · intro id k f hs
    obtain ⟨owner, g, hr⟩ := h.registered_of_joined hs
    refine ⟨owner, g, hr, ?_⟩
    -- The flight it waits for is under way, or has landed and left what the call will receive.
    rcases h.computing_or_landed hr with hcomputing | ⟨result, hl⟩
    · exact .inl hcomputing
    · obtain ⟨n, hlookup, -⟩ := h.answered_of_landed hl
      exact .inr ⟨result, n, hl, hlookup⟩
  · intro id result m' hs
    obtain ⟨k, f, g, hlands⟩ := Step.LeadsTo.lands (s := ⟨m, .finish id result⟩) hs rfl
    exact ⟨k, f, g, hlands.2, fun k' f' => Runs.mem_flights_of_lands h hlands hs,
      fun hresult => hlands.leaves hs (kept_eq_none.mpr hresult)⟩
  · intro id m' hs
    obtain ⟨k, hlooks⟩ := Step.LeadsTo.looks (s := ⟨m, .look id⟩) hs rfl
    exact hlooks.leaves hs
  · rintro before s between t after rfl id k f g result hlooks hl hresult id' found hlooks'
    exact h.split.1.looks_after_failure hlooks hl (kept_eq_none.mpr hresult) hlooks'
  · rintro before t after rfl id k f hlooks
    obtain ⟨hrun, -⟩ := h.split
    obtain ⟨owner, hs⟩ := hrun.computing_of_joins hlooks
    exact ⟨⟨owner, _, hs⟩, fun _ _ _ _ => hrun.not_landed_of_computing hs⟩

end Machine

namespace NestedClear

/-- A computation clears the cache, asks for its own key, gets 7, and fails; then another call
looks the key up. -/
def actions : List (Action String Nat) := [
  .call none "k", .check 0, .look 0, .clear, .call (some 0) "k", .check 1, .look 1,
  .finish 1 (.ok (some 7)), .finish 0 (.error .nulInPath), .call none "k", .check 2, .look 2]

/-- The steps taken. -/
def past : List (Machine.Step String Nat) := Machine.trace .noon actions

/-- The machine that they lead to. -/
def final : Machine String Nat := actions.foldl Machine.step .noon

/-- The steps after the first look and before the last one. -/
def between : List (Machine.Step String Nat) := (past.drop 3).take 8

/-- While the nested computation is under way its call alone owns its flight, and the value that the
last look hits is of a flight registered after the failed one. -/
theorem hit_of_nested_flight :
    (∃! id, ∃ g, past[7].before.Stands id "k" (.computing 1 g)) ∧
      ∃ owner f, Machine.Registered between owner "k" f 2 ∧
        Machine.Landed between owner "k" f 2 (.ok (some 7)) := by
  have hrun : Machine.Runs .noon past final := Machine.runs_trace rfl
  have hcut : Machine.Runs .noon (past.take 7 ++ past[7] :: past.drop 8) final := hrun
  refine ⟨hcut.split.1.flights_owned.1 "k" 1 List.mem_cons_self, ?_⟩
  obtain ⟨f, hfound⟩ | ⟨owner, f, hr, hfound | ⟨v, hfound, hl⟩⟩ :=
    hrun.flights_owned.2.2.2.2.1 (past.take 2) past[2] between past[11] [] rfl 0 "k" 0 1
      (.error .nulInPath) ⟨rfl, ⟨none, rfl⟩, rfl⟩
      ⟨between[5], List.getElem_mem _, rfl, none, rfl⟩ (.inr ⟨_, rfl⟩) 2 (.hit 7)
      ⟨rfl, ⟨none, rfl⟩, rfl⟩
  · contradiction
  · contradiction
  · injection hfound with hv
    exact ⟨owner, f, hr, hv ▸ hl⟩

/-- The first look at a key after its computation has failed need not compute: it may hit what a
computation left that was nested in the failed one. -/
theorem hit_after_failure :
    Machine.Runs .noon past final ∧ past[8].Lands 0 "k" 0 1 (.error .nulInPath) ∧
      past[9].action = .call none "k" ∧ past[10].action = .check 2 ∧
      past[11].Looks 2 "k" (.hit 7) ∧ final.answer? 2 = some (.value 7) ∧
      ∀ k f g, ¬Machine.Registered past 2 k f g := by
  have hrun : Machine.Runs .noon past final := Machine.runs_trace rfl
  have hlooks : past[11].Looks 2 "k" (.hit 7) := ⟨rfl, ⟨none, rfl⟩, rfl⟩
  refine ⟨hrun, ⟨rfl, none, rfl⟩, rfl, rfl, hlooks, rfl, ?_⟩
  intro k f g hr
  have hfound := (hrun.looked_unique ⟨past[11], List.getElem_mem _, hlooks⟩ hr).2
  contradiction

end NestedClear
end Stratum
