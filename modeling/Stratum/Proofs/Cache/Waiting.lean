import Mathlib.Order.WellFoundedSet
import Stratum.Proofs.Cache.Clock
import Stratum.Proofs.Cache.SingleFlight

/-!
# Who waits for whom

A computation waits for the call that it has made, and a call that joined a flight waits for the
call that computes it. Whoever waits for a call that waits itself is where it was after any step.
Unless calls wait in a circle, every call without an answer comes, along those that it waits for, to
one that can take a step.
-/

namespace Stratum.Machine

variable {K V : Type}

/-! ## Calls and those that made them -/

/-- A computation has made a call. -/
def MadeBy (m : Machine K V) (id c : Nat) : Prop := ∃ k p, m.calls[c]? = some ⟨k, some id, p⟩

/-- A call waits for another one: a computation for the call that it has made, until that is
answered, and a call that joined a flight for the call that computes it. -/
inductive WaitsFor (m : Machine K V) (id c : Nat) : Prop
  | made (k : K) (p : Phase V) (hcall : m.calls[c]? = some ⟨k, some id, p⟩)
      (hopen : p.isAnswered = false)
  | joined (k : K) (f g : Nat) (hjoined : m.Stands id k (.joined f))
      (hcomputing : m.Stands c k (.computing f g))

/-- A call can take a step of its own. -/
def MayStep [DecidableEq K] (m : Machine K V) (id : Nat) : Prop :=
  (m.step? (.check id)).isSome ∨ (m.step? (.look id)).isSome ∨
    (∃ result, (m.step? (.finish id result)).isSome) ∨ (m.step? (.receive id)).isSome

/-- A computation has an open call if a call that it has made has no answer. -/
theorem hasOpenCall_iff {m : Machine K V} {id : Nat} :
    m.hasOpenCall id = true ↔
      ∃ (c : Nat) (k : K) (p : Phase V),
        m.calls[c]? = some ⟨k, some id, p⟩ ∧ p.isAnswered = false := by
  rw [hasOpenCall, List.any_eq_true]
  constructor
  · rintro ⟨⟨k, parent, p⟩, hmem, hopen⟩
    obtain ⟨c, hcall⟩ := List.mem_iff_getElem?.mp hmem
    simp only [Bool.and_eq_true, beq_iff_eq, Bool.not_eq_true'] at hopen
    obtain ⟨rfl, hopen⟩ := hopen
    exact ⟨c, k, p, hcall, hopen⟩
  · rintro ⟨c, k, p, hcall, hopen⟩
    exact ⟨_, List.mem_of_getElem? hcall, by simp [hopen]⟩

/-- Whoever may make a call as a computation is computing. -/
theorem mayCall_some {m : Machine K V} {id : Nat} (h : m.mayCall (some id) = true) :
    ∃ k f g, m.Stands id k (.computing f g) := by
  unfold mayCall at h
  split at h
  · contradiction
  · rename_i id' heq
    injection heq with heq
    subst heq
    split at h
    · rename_i k parent f g hcall
      exact ⟨k, f, g, parent, hcall⟩
    · contradiction

variable [DecidableEq K] {m m' m₀ : Machine K V} {s : Step K V}
  {past : List (Step K V)} {now : Moment} {id c x y z : Nat} {k i : K} {f f' g g' : Nat}
  {parent : Option Nat} {p : Phase V}

/-- A step makes a call, or brings a call to a phase, or leaves the calls alone. -/
theorem Step.LeadsTo.calls_cases (h : s.LeadsTo m') :
    (∃ parent k, s.action = .call parent k ∧ s.before.mayCall parent = true ∧
      m'.calls = s.before.calls ++ [⟨k, parent, .called⟩]) ∨
    (∃ id q, m'.calls = (s.before.setPhase id q).calls) ∨ m'.calls = s.before.calls := by
  have hstep := h
  obtain ⟨m, a⟩ := s
  unfold LeadsTo at h
  -- A call is added, or one call goes to another phase, or the calls stay as they are.
  cases a with
  | call parent k =>
    simp only [step?] at h
    split_ifs at h with hmay
    injection h with h
    exact .inl ⟨parent, k, rfl, hmay, by rw [← h]⟩
  | check id =>
    simp only [step?] at h
    split at h
    · injection h with h
      obtain ⟨p, log, -, heq⟩ := m.check_eq id
      exact .inr (.inl ⟨id, p, by rw [← h, heq]; rfl⟩)
    · contradiction
  | look id =>
    obtain ⟨k, hlooks⟩ := hstep.looks rfl
    exact .inr (.inl ⟨id, _, by rw [hlooks.eq_look hstep, look_eq]; rfl⟩)
  | finish id result =>
    obtain ⟨k, f, g, hlands⟩ := hstep.lands rfl
    exact .inr (.inl ⟨id, _, by rw [hlands.eq_finish hstep]; rfl⟩)
  | receive id =>
    simp only [step?] at h
    split at h
    · obtain ⟨l, -, h⟩ := Option.map_eq_some_iff.mp h
      exact .inr (.inl ⟨id, _, by rw [← h]⟩)
    · contradiction
  | clear =>
    simp only [step?, Option.some.injEq] at h
    obtain ⟨log, heq⟩ := m.clear_eq
    exact .inr (.inr (by rw [← h, heq]))
  | setClock now =>
    simp only [step?, Option.some.injEq] at h
    exact .inr (.inr (by rw [← h]))

omit [DecidableEq K] in
/-- A call brought to a phase keeps its key and its maker, and so do the others. -/
theorem call_setPhase {q : Phase V} (h : m.calls[c]? = some ⟨k, parent, p⟩) :
    ∃ p', (m.setPhase id q).calls[c]? = some ⟨k, parent, p'⟩ := by
  unfold setPhase
  rw [List.getElem?_modify, h]
  by_cases hc : id = c <;> simp [hc]

/-- A call keeps its key and its maker over a step. -/
theorem Step.LeadsTo.keeps_call (h : s.LeadsTo m')
    (hcall : s.before.calls[c]? = some ⟨k, parent, p⟩) :
    ∃ p', m'.calls[c]? = some ⟨k, parent, p'⟩ := by
  rcases h.calls_cases with ⟨parent', k', -, -, heq⟩ | ⟨id, q, heq⟩ | heq <;> rw [heq]
  · exact ⟨p, by rw [List.getElem?_append_left (List.getElem?_eq_some_iff.mp hcall).1, hcall]⟩
  · exact call_setPhase hcall
  · exact ⟨p, hcall⟩

/-- A call keeps its key and its maker over a run. -/
theorem Runs.keeps_call (h : Runs m₀ past m) (hcall : m₀.calls[c]? = some ⟨k, parent, p⟩) :
    ∃ p', m.calls[c]? = some ⟨k, parent, p'⟩ := by
  induction h with
  | refl => exact ⟨p, hcall⟩
  | step _ hs ih =>
    obtain ⟨q, hq⟩ := ih
    exact hs.keeps_call hq

/-- A call was there before a step, with its key and its maker, or the step made it. -/
theorem Step.LeadsTo.call_cases (h : s.LeadsTo m')
    (hcall : m'.calls[c]? = some ⟨k, parent, p⟩) :
    (∃ p', s.before.calls[c]? = some ⟨k, parent, p'⟩) ∨
      (s.action = .call parent k ∧ s.before.mayCall parent = true) := by
  rcases hold : s.before.calls[c]? with _ | ⟨k', parent', p'⟩
  · rcases h.calls_cases with ⟨parent', k', haction, hmay, heq⟩ | ⟨id, q, heq⟩ | heq
    · -- The call is the new one, at the end of the list.
      rw [heq, List.getElem?_append_right (List.getElem?_eq_none_iff.mp hold)] at hcall
      have hnew := List.mem_of_getElem? hcall
      simp only [List.mem_singleton, Call.mk.injEq] at hnew
      obtain ⟨rfl, rfl, -⟩ := hnew
      exact .inr ⟨haction, hmay⟩
    · rw [heq, setPhase, List.getElem?_modify, hold] at hcall
      contradiction
    · rw [heq, hold] at hcall
      contradiction
  · obtain ⟨q, hq⟩ := h.keeps_call hold
    rw [hq] at hcall
    injection hcall with hcall
    injection hcall with hk hparent
    subst hk hparent
    exact .inl ⟨p', rfl⟩

/-- A call that a computation has made was made by a step that was taken while it computed. -/
theorem Runs.asked_of_madeBy (h : Runs (start now) past m)
    (hcall : m.calls[c]? = some ⟨k, some id, p⟩) :
    Happened past fun s => s.action = .call (some id) k ∧
      ∃ i f g, s.before.Stands id i (.computing f g) := by
  induction h generalizing p with
  | refl => simp [start] at hcall
  | step _ hs ih =>
    rcases hs.call_cases hcall with ⟨p', hcall⟩ | ⟨haction, hmay⟩
    · exact happened_snoc.mpr (.inl (ih hcall))
    · exact happened_snoc.mpr (.inr ⟨haction, mayCall_some hmay⟩)

/-- A call has its key to the end of a run. -/
theorem Runs.computing_key (h : Runs (start now) past m) (hs : s ∈ past)
    (hbefore : s.before.Stands id i (.computing f g)) (hafter : m.Stands id k (.computing f' g')) :
    i = k := by
  obtain ⟨before, after, rfl⟩ := List.append_of_mem hs
  obtain ⟨hrun, -⟩ := h.split
  have hr := hrun.registered_of_computing hbefore
  exact (h.looked_unique (happened_append.mpr (.inl hr)) (h.registered_of_computing hafter)).1

/-! ## Who is held up -/

/-- A flight does not land while a call that its computation made is open. -/
theorem Step.LeadsTo.not_lands (h : s.LeadsTo m') (hopen : s.before.hasOpenCall id = true)
    {result : Except Failure (Option V)} : ¬s.Lands id k f g result := by
  rintro ⟨haction, parent, hcall⟩
  simp only [LeadsTo, haction, step?, hcall, hopen, if_true] at h
  contradiction

/-- Whoever made a call that has no answer computes. -/
theorem Runs.computing_of_open (h : Runs (start now) past m)
    (hcall : m.calls[c]? = some ⟨k, some id, p⟩) (hopen : p.isAnswered = false) :
    ∃ i f g, m.Stands id i (.computing f g) := by
  induction h generalizing p with
  | refl => simp [start] at hcall
  | @step past s m hrun hs ih =>
    -- While it computes and its call is open nothing ends its computation.
    have hkeep : ∀ {i f g}, s.before.Stands id i (.computing f g) →
        (∀ result, ¬s.Lands id i f g result) → ∃ i f g, m.Stands id i (.computing f g) :=
      fun hcomputing hlands => ⟨_, _, _, hs.computing_iff.mpr (.inl ⟨hcomputing, hlands⟩)⟩
    rcases hs.call_cases hcall with ⟨p', hcall'⟩ | ⟨haction, hmay⟩
    · have hopen' : p'.isAnswered = false := by
        cases p' with
        | answered a =>
          have hanswered := hs.stays_answered ⟨_, hcall'⟩
          rw [(hanswered.unique ⟨_, hcall⟩).2.symm] at hopen
          contradiction
        | _ => rfl
      obtain ⟨i, f, g, hcomputing⟩ := ih hcall' hopen'
      exact hkeep hcomputing fun _ => hs.not_lands (hasOpenCall_iff.mpr ⟨c, k, p', hcall', hopen'⟩)
    · obtain ⟨i, f, g, hcomputing⟩ := mayCall_some hmay
      refine hkeep hcomputing fun result hlands => ?_
      rw [hlands.1] at haction
      contradiction

/-- Whoever waits computes, with an open call, or joined a flight that is being computed. -/
theorem Runs.waitsFor_cases (h : Runs (start now) past m) (hw : m.WaitsFor x y) :
    (∃ k f g, m.Stands x k (.computing f g) ∧ m.hasOpenCall x = true) ∨
      ∃ k f g, m.Stands x k (.joined f) ∧ m.Stands y k (.computing f g) := by
  cases hw with
  | made k p hcall hopen =>
    obtain ⟨i, f, g, hcomputing⟩ := h.computing_of_open hcall hopen
    exact .inl ⟨i, f, g, hcomputing, hasOpenCall_iff.mpr ⟨y, k, p, hcall, hopen⟩⟩
  | joined k f g hjoined hcomputing => exact .inr ⟨k, f, g, hjoined, hcomputing⟩

/-- Nothing is known of a flight that is being computed. -/
theorem Runs.lookup_landed_of_computing (h : Runs (start now) past m)
    (hs : m.Stands id k (.computing f g)) : m.landed.lookup f = none := by
  rcases hl : m.landed.lookup f with _ | l
  · rfl
  · obtain ⟨_, _, _, _, _, hlanded, -⟩ := h.landed_of_lookup hl
    exact absurd hlanded (h.not_landed_of_computing hs)

/-- Whoever waits stands where it stood after any step. -/
theorem Runs.stays_of_waitsFor (h : Runs (start now) past s.before) (hs : s.LeadsTo m')
    (hw : s.before.WaitsFor x y) (hx : s.before.Stands x k p) : m'.Stands x k p := by
  rcases h.waitsFor_cases hw with ⟨i, f, g, hcomputing, hopen⟩ | ⟨i, f, g, hjoined, hcomputing⟩
  · obtain ⟨rfl, rfl⟩ := hx.unique hcomputing
    exact hs.computing_iff.mpr (.inl ⟨hx, fun _ => hs.not_lands hopen⟩)
  · obtain ⟨rfl, rfl⟩ := hx.unique hjoined
    rcases hs.stays hx rfl with hstays | ⟨_, _, _, hp, -⟩ | ⟨f', l, hp, hl, -⟩
    · exact hstays
    · contradiction
    · injection hp with hf
      rw [← hf, h.lookup_landed_of_computing hcomputing] at hl
      contradiction

/-- Whoever waits for a call that waits itself goes on waiting for it. -/
theorem Runs.waitsFor_step (h : Runs (start now) past s.before) (hs : s.LeadsTo m')
    (hxy : s.before.WaitsFor x y) (hyz : s.before.WaitsFor y z) : m'.WaitsFor x y := by
  cases hxy with
  | made k p hcall hopen =>
    have hstays := h.stays_of_waitsFor hs hyz ⟨_, hcall⟩
    obtain ⟨p', hcall'⟩ := hs.keeps_call hcall
    obtain ⟨-, rfl⟩ := hstays.unique ⟨_, hcall'⟩
    exact .made k p hcall' hopen
  | joined k f g hjoined hcomputing =>
    exact .joined k f g (h.stays_of_waitsFor hs (.joined k f g hjoined hcomputing) hjoined)
      (h.stays_of_waitsFor hs hyz hcomputing)

/-- Whoever waits has no answer. -/
theorem Runs.answer_of_waitsFor (h : Runs (start now) past m) (hw : m.WaitsFor x y) :
    m.answer? x = none := by
  rcases h.waitsFor_cases hw with ⟨_, _, _, ⟨_, hcall⟩, -⟩ | ⟨_, _, _, ⟨_, hcall⟩, -⟩ <;>
    simp only [answer?, hcall]

/-- Whoever waits can take no step. -/
theorem Runs.not_mayStep_of_waitsFor (h : Runs (start now) past m) (hw : m.WaitsFor x y) :
    ¬m.MayStep x := by
  rcases h.waitsFor_cases hw with ⟨k, f, g, ⟨_, hcall⟩, hopen⟩ |
    ⟨k, f, g, ⟨_, hcall⟩, hcomputing⟩
  · simp [MayStep, step?, hcall, hopen]
  · simp [MayStep, step?, hcall, h.lookup_landed_of_computing hcomputing]

/-! ## Who can go on -/

/-- A call without an answer can take a step, or waits for a call that has none either. -/
theorem Runs.mayStep_or_waitsFor (h : Runs (start now) past m) (hs : m.Stands id k p)
    (hopen : p.isAnswered = false) :
    m.MayStep id ∨ ∃ c i q, m.WaitsFor id c ∧ m.Stands c i q ∧ q.isAnswered = false := by
  have hstands := hs
  obtain ⟨parent, hcall⟩ := hs
  cases p with
  | called => exact .inl (.inl (by simp [step?, hcall]))
  | checked => exact .inl (.inr (.inl (by simp [step?, hcall])))
  | joined f =>
    obtain ⟨owner, g, hr⟩ := h.registered_of_joined hstands
    rcases h.computing_or_landed hr with hcomputing | ⟨result, hl⟩
    · exact .inr ⟨owner, k, _, .joined k f g hstands hcomputing, hcomputing, rfl⟩
    · obtain ⟨n, hlookup, -⟩ := h.answered_of_landed hl
      exact .inl (.inr (.inr (.inr (by simp [step?, hcall, hlookup]))))
  | computing f g =>
    by_cases hcalls : m.hasOpenCall id = true
    · obtain ⟨c, i, q, hmade, hopen⟩ := hasOpenCall_iff.mp hcalls
      exact .inr ⟨c, i, q, .made i q hmade hopen, ⟨_, hmade⟩, hopen⟩
    · exact .inl (.inr (.inr (.inl ⟨.ok none, by simp [step?, hcall, hcalls]⟩)))
  | answered a => contradiction

omit [DecidableEq K] in
/-- There are finitely many calls, so that the chains of those who wait end if none is a circle. -/
theorem wellFoundedOn_waitsFor (hnone : ∀ id, ¬Relation.TransGen m.WaitsFor id id) :
    {id | id < m.calls.length}.WellFoundedOn (Function.swap (Relation.TransGen m.WaitsFor)) := by
  have : Std.Irrefl (Function.swap (Relation.TransGen m.WaitsFor)) := ⟨hnone⟩
  have : IsStrictOrder Nat (Function.swap (Relation.TransGen m.WaitsFor)) := {}
  exact (Set.finite_lt_nat m.calls.length).wellFoundedOn

/-- If no call waits in a circle, a call without an answer comes to one that can take a step. -/
theorem Runs.exists_mayStep (h : Runs (start now) past m)
    (hnone : ∀ id, ¬Relation.TransGen m.WaitsFor id id) (hs : m.Stands id k p)
    (hopen : p.isAnswered = false) :
    ∃ c, Relation.ReflTransGen m.WaitsFor id c ∧ m.MayStep c := by
  have hlt : ∀ {c i q}, m.Stands c i q → c < m.calls.length :=
    fun ⟨_, hcall⟩ => (List.getElem?_eq_some_iff.mp hcall).1
  refine (wellFoundedOn_waitsFor hnone).induction (P := fun id => ∀ {k p}, m.Stands id k p →
    p.isAnswered = false → ∃ c, Relation.ReflTransGen m.WaitsFor id c ∧ m.MayStep c)
    (hlt hs) ?_ hs hopen
  intro x _ ih k p hs hopen
  rcases h.mayStep_or_waitsFor hs hopen with hmay | ⟨c, i, q, hw, hc, hopen'⟩
  · exact ⟨x, .refl, hmay⟩
  · obtain ⟨d, hcd, hmay⟩ := ih c (hlt hc) (.single hw) hc hopen'
    exact ⟨d, hcd.head hw, hmay⟩

end Stratum.Machine
