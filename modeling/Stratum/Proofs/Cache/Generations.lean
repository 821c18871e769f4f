import Stratum.Proofs.Cache.Entries

/-!
# Generations are kept apart

The value that a call is answered with was computed by a flight of the generation in which the call
looked. What was registered before a clear is of an earlier generation than whatever looks after it,
so that no answer crosses a clear, whenever the flights of before the clear may land.
-/

namespace Stratum

/-- The answer of a call that returns a value, or none. -/
def Answer.returned {V : Type} : Option V → Answer V
  | some v => .value v
  | none => .nothing

/-- What is returned is a value if the answer is. -/
theorem Answer.returned_eq_value {V : Type} {r : Option V} {v : V} :
    returned r = .value v ↔ r = some v := by
  cases r <;> simp [returned]

namespace Machine

variable {K V : Type}

/-- A call that joined returns what the computation of its flight ended with. -/
theorem toJoined_eq_returned {n : Nat} {result : Except Failure (Option V)} {r : Option V} :
    (landing n result).toJoined = .returned r ↔ result = .ok r := by
  rcases result with e | _ | w
  · by_cases he : e.isRepeatable = true <;> cases r <;>
      simp [landing, Landing.toJoined, Answer.returned, he]
  · cases r <;> simp [landing, Landing.toJoined, Answer.returned]
  · cases r <;> simp [landing, Landing.toJoined, Answer.returned]

/-- A call that computed returns what its computation ended with. -/
theorem toOwner_eq_returned {n : Nat} {result : Except Failure (Option V)} {r : Option V} :
    (landing n result).toOwner = .returned r ↔ result = .ok r := by
  rcases result with e | _ | w <;> cases r <;> simp [landing, Landing.toOwner, Answer.returned]

/-- The answer of a call is what it stands at. -/
theorem stands_of_answer {m : Machine K V} {id : Nat} {a : Answer V} (h : m.answer? id = some a) :
    ∃ k, m.Stands id k (.answered a) := by
  unfold answer? at h
  split at h
  · rename_i k parent a' hcall
    injection h with h
    exact ⟨k, parent, h ▸ hcall⟩
  · contradiction

/-- A call stands at its answer. -/
theorem answer_of_stands {m : Machine K V} {id : Nat} {k : K} {a : Answer V}
    (h : m.Stands id k (.answered a)) :
    m.answer? id = some a := by
  obtain ⟨parent, hcall⟩ := h
  simp only [answer?, hcall]

variable [DecidableEq K] {m : Machine K V} {past before after : List (Step K V)} {c s : Step K V}
  {now : Moment} {id : Nat} {k : K} {f g : Nat} {found : Lookup V} {v : V}
  {result : Except Failure (Option V)}

/-- What a call returns landed in the generation in which the call looked. -/
theorem Runs.exists_landed_of_returned {r : Option V} (h : Runs (start now) past m) (hs : s ∈ past)
    (hlooks : s.Looks id k found) (ha : m.Stands id k (.answered (.returned r))) :
    ∃ owner f, Landed past owner k f s.before.cache.generation (.ok r) ∧
      ((∃ v, r = some v ∧ found = .hit v) ∨ found = .joined f ∨
        found = .started f s.before.cache.generation) := by
  have hlooked : Looked past id k found := ⟨s, hs, hlooks⟩
  obtain ⟨earlier, later, rfl⟩ := List.append_of_mem hs
  obtain ⟨hrun, m', hstep, -⟩ := h.split
  cases found with
  | hit v =>
    have hphase := (ha.unique (h.answered_of_hit hlooked)).2
    injection hphase with hphase
    obtain rfl := Answer.returned_eq_value.mp hphase
    obtain ⟨owner, f, hl⟩ :=
      hrun.landed_of_mem (Cache.mem_of_lookup (Cache.lookup_eq_hit.mp hlooks.2.2))
    exact ⟨owner, f, happened_append.mpr (.inl hl), .inl ⟨v, rfl, rfl⟩⟩
  | joined f =>
    obtain ⟨owner, hcomputing⟩ := hrun.computing_of_joins hlooks
    -- The flight was registered in the generation of the look, and no other flight has its number.
    have hr : Registered (earlier ++ s :: later) owner k f s.before.cache.generation :=
      happened_append.mpr (.inl (hrun.registered_of_computing hcomputing))
    obtain ⟨owner', g', n, result, hlanded, -, hphase⟩ := h.landed_of_joins hlooked ha
    obtain ⟨rfl, -, rfl⟩ := h.registered_unique (h.registered_of_landed hlanded) hr
    obtain rfl := toJoined_eq_returned.mp hphase.symm
    exact ⟨owner', f, hlanded, .inr (.inl rfl)⟩
  | started f g =>
    obtain ⟨-, rfl, -⟩ := hlooks.started hstep
    rcases h.computing_or_landed hlooked with hcomputing | ⟨result, hlanded⟩
    · have hphase := (ha.unique hcomputing).2
      contradiction
    · obtain ⟨n, -, hanswered⟩ := h.answered_of_landed hlanded
      have hphase := (hanswered.unique ha).2
      injection hphase with hphase
      obtain rfl := toOwner_eq_returned.mp hphase
      exact ⟨id, f, hlanded, .inr (.inr rfl)⟩

/-- The value that a call is answered with landed in the generation in which the call looked. -/
theorem Runs.exists_landed_of_value (h : Runs (start now) past m) (hs : s ∈ past)
    (hlooks : s.Looks id k found) (ha : m.Stands id k (.answered (.value v))) :
    ∃ owner f, Landed past owner k f s.before.cache.generation (.ok (some v)) ∧
      (found = .hit v ∨ found = .joined f ∨ found = .started f s.before.cache.generation) := by
  obtain ⟨owner, f, hl, hfound⟩ := h.exists_landed_of_returned (r := some v) hs hlooks ha
  refine ⟨owner, f, hl, hfound.imp_left ?_⟩
  rintro ⟨w, hw, rfl⟩
  rw [Option.some.inj hw]

/-! ## Across a clear -/

/-- What was registered in a later generation than that of a step that clears was registered after
the step. -/
theorem Runs.registered_after (h : Runs (start now) (before ++ c :: after) m) (hc : c.Clears)
    (hg : c.before.cache.generation < g) (hr : Registered (before ++ c :: after) id k f g) :
    Registered after id k f g := by
  obtain ⟨hrun, -⟩ := h.split
  rcases happened_append.mp hr with hr | hr
  · have hle := (hrun.registered_bounds hr).2.2
    omega
  · rcases happened_cons.mp hr with hlooks | hr
    · exact absurd hlooks hc.not_looks
    · exact hr

/-- What landed of a later generation than that of a step that clears landed after the step. -/
theorem Runs.landed_after (h : Runs (start now) (before ++ c :: after) m) (hc : c.Clears)
    (hg : c.before.cache.generation < g) (hl : Landed (before ++ c :: after) id k f g result) :
    Landed after id k f g result := by
  obtain ⟨hrun, -⟩ := h.split
  rcases happened_append.mp hl with hl | hl
  · have hle := (hrun.registered_bounds (hrun.registered_of_landed hl)).2.2
    omega
  · rcases happened_cons.mp hl with hlands | hl
    · exact absurd hlands hc.not_lands
    · exact hl

/-- A step after one that clears is taken in a later generation. -/
theorem Runs.generation_lt (h : Runs (start now) (before ++ c :: after) m) (hc : c.Clears)
    (hs : s ∈ after) : c.before.cache.generation < s.before.cache.generation := by
  obtain ⟨earlier, later, rfl⟩ := List.append_of_mem hs
  obtain ⟨-, m', hstep, hafter⟩ := h.split
  obtain ⟨hmid, -⟩ := hafter.split
  have hle := hmid.counts_le.2
  have hnext := hc.generation hstep
  omega

/-- The entries and flights of a cache are of its current generation, and a call that looks after a
clear is answered with a value of a flight registered after it, never of one registered before. -/
theorem Runs.generations_apart (h : Runs (start now) past m) :
    (∀ k v, (k, v) ∈ m.cache.entries → ∃ id f,
      Registered past id k f m.cache.generation ∧
        Landed past id k f m.cache.generation (.ok (some v))) ∧
    (∀ k f, (k, f) ∈ m.cache.flights → ∃ id, Registered past id k f m.cache.generation) ∧
    ∀ before c after, past = before ++ c :: after → c.Clears →
      ∀ s ∈ after, ∀ id k found v, s.Looks id k found → m.answer? id = some (.value v) →
        ∃ owner f,
          Registered after owner k f s.before.cache.generation ∧
          Landed after owner k f s.before.cache.generation (.ok (some v)) ∧
          (∀ id' k' g', ¬Registered before id' k' f g') ∧
          (found = .hit v ∨ found = .joined f ∨ found = .started f s.before.cache.generation) := by
  refine ⟨?_, ?_, ?_⟩
  · intro k v hmem
    obtain ⟨id, f, hl⟩ := h.landed_of_mem hmem
    exact ⟨id, f, h.registered_of_landed hl, hl⟩
  · intro k f hmem
    obtain ⟨id, hcomputing⟩ := h.mem_flights_iff.mp hmem
    exact ⟨id, h.registered_of_computing hcomputing⟩
  · rintro before c after rfl hc s hs id k found v hlooks ha
    -- The value was landed by a flight of the generation at the look, and the clear has raised the
    -- generation: so the flight was registered after it.
    have hg := h.generation_lt hc hs
    have hmem : s ∈ before ++ c :: after :=
      List.mem_append_right before (List.mem_cons_of_mem c hs)
    obtain ⟨k', ha⟩ := stands_of_answer ha
    obtain ⟨p, hp, -⟩ := h.stands_of_looked ⟨s, hmem, hlooks⟩
    obtain ⟨rfl, -⟩ := ha.unique hp
    obtain ⟨owner, f, hl, hfound⟩ := h.exists_landed_of_value hmem hlooks ha
    have hr := h.registered_after hc hg (h.registered_of_landed hl)
    refine ⟨owner, f, hr, h.landed_after hc hg hl, ?_, hfound⟩
    intro id' k'' g' hold
    exact absurd (h.registered_lt hold hr) (Nat.lt_irrefl f)

end Machine

namespace LateLanding

/-- A call computes; the cache is cleared; a second call computes and a third one joins it. The
second flight lands with 8 and then the first one with 7, and a fourth call looks. -/
def actions : List (Action String Nat) := [
  .call none "k", .check 0, .look 0, .clear, .call none "k", .check 1, .look 1, .call none "k",
  .check 2, .look 2, .finish 1 (.ok (some 8)), .finish 0 (.ok (some 7)), .receive 2,
  .call none "k", .check 3, .look 3]

/-- The steps taken. -/
def past : List (Machine.Step String Nat) := Machine.trace .noon actions

/-- The machine that they lead to. -/
def final : Machine String Nat := actions.foldl Machine.step .noon

/-- The fourth call hits the value of the flight registered after the clear. -/
theorem newer_value_stays :
    final.answer? 0 = some (.value 7) ∧ final.answer? 3 = some (.value 8) ∧
      ∃ owner f, Machine.Landed (past.drop 4) owner "k" f 2 (.ok (some 8)) := by
  have hrun : Machine.Runs .noon past final := Machine.runs_trace rfl
  refine ⟨rfl, rfl, ?_⟩
  obtain ⟨owner, f, -, hl, -⟩ := hrun.generations_apart.2.2 (past.take 3) past[3] (past.drop 4) rfl
    (.inl rfl) (past.drop 4)[11] (List.getElem_mem _) 3 "k" (.hit 8) 8 ⟨rfl, ⟨none, rfl⟩, rfl⟩ rfl
  exact ⟨owner, f, hl⟩

end LateLanding
end Stratum
