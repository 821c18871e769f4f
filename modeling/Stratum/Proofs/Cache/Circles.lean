import Stratum.Proofs.Cache.Waiting

/-!
# Calls that wait in a circle

A computation may ask for any key, also for one whose computation waits for its own. Calls wait in a
circle exactly if the keys that computations have requested within one generation close a circle,
and they wait there for good. A computation that asks for its own key waits for itself. Where the
keys asked for close no circle, no call waits in one.
-/

namespace Stratum
namespace Machine

open Relation (ReflTransGen TransGen)

variable {K V : Type} [DecidableEq K] {m m' : Machine K V} {past before after : List (Step K V)}
  {s : Step K V} {now : Moment} {id c x y z : Nat} {k k' : K} {f g g' : Nat} {found : Lookup V}

/-! ## Flights and requests -/

omit [DecidableEq K] in
/-- A call has a flight of a key in a generation, which it computes itself or waits for. -/
def Flies (m : Machine K V) (c : Nat) (k : K) (g : Nat) : Prop :=
  ∃ owner f, m.Stands owner k (.computing f g) ∧ (owner = c ∨ m.Stands c k (.joined f))

omit [DecidableEq K] in
/-- The computation of a key waits for another key, which it has requested, in its generation. -/
def Requests (m : Machine K V) (g : Nat) (k k' : K) : Prop :=
  ∃ id c f, m.Stands id k (.computing f g) ∧ m.MadeBy id c ∧ m.Flies c k' g

omit [DecidableEq K] in
/-- A computation of a key has asked for another key. -/
def Asked (past : List (Step K V)) (k k' : K) : Prop :=
  Happened past fun s => ∃ id f g,
    s.action = .call (some id) k' ∧ s.before.Stands id k (.computing f g)

omit [DecidableEq K] in
/-- Whoever computes has its own flight. -/
theorem Stands.flies (h : m.Stands id k (.computing f g)) : m.Flies id k g := ⟨id, f, h, .inl rfl⟩

/-- A call has one flight. -/
theorem Runs.flies_unique (h : Runs (start now) past m) (hc : m.Flies c k g)
    (hc' : m.Flies c k' g') : k = k' ∧ g = g' := by
  obtain ⟨owner, f, hs, howner⟩ := hc
  obtain ⟨owner', f', hs', howner'⟩ := hc'
  rcases howner with rfl | hj <;> rcases howner' with rfl | hj'
  · obtain ⟨rfl, hp⟩ := hs.unique hs'
    injection hp with _ hg
    exact ⟨rfl, hg⟩
  · have hp := (hs.unique hj').2
    contradiction
  · have hp := (hj.unique hs').2
    contradiction
  · obtain ⟨rfl, hp⟩ := hj.unique hj'
    injection hp with hf
    subst hf
    exact (h.computing_unique hs hs').2

/-- A call that waits for a flight has joined it. -/
theorem Runs.looked_of_joined (h : Runs (start now) past m) (hs : m.Stands c k (.joined f)) :
    Looked past c k (.joined f) := by
  induction h with
  | refl => exact absurd hs not_stands_start
  | step _ hstep ih =>
    rcases hstep.of_hasFlight hs rfl with hs | ⟨found, hlooks, hphase⟩
    · exact happened_snoc.mpr (.inl (ih hs))
    · cases found with
      | joined f' =>
        injection hphase with hf
        exact happened_snoc.mpr (.inr (hf ▸ hlooks))
      | hit v => contradiction
      | started f' g' => contradiction

/-- A call that has a flight looked its key up in the generation of the flight. -/
theorem Runs.looks_of_flies (h : Runs (start now) past m) (hc : m.Flies c k g) :
    ∃ s ∈ past, s.before.Stands c k .checked ∧ s.before.cache.generation = g := by
  obtain ⟨owner, f, hs, rfl | hj⟩ := hc
  · obtain ⟨s, hmem, hlooks⟩ := h.registered_of_computing hs
    have hg := (Cache.lookup_eq_started.mp hlooks.2.2).2.2.2
    exact ⟨s, hmem, hlooks.2.1, hg.symm⟩
  · obtain ⟨s, hmem, hlooks⟩ := h.looked_of_joined hj
    refine ⟨s, hmem, hlooks.2.1, ?_⟩
    -- The flight that it joined was of the generation of its look, and has one generation.
    obtain ⟨before, after, rfl⟩ := List.append_of_mem hmem
    obtain ⟨hrun, -⟩ := h.split
    obtain ⟨owner', hcomputing⟩ := hrun.computing_of_joins hlooks
    have hr : Registered (before ++ s :: after) owner' k f s.before.cache.generation :=
      happened_append.mpr (.inl (hrun.registered_of_computing hcomputing))
    exact (h.registered_unique hr (h.registered_of_computing hs)).2.2

/-- A call that a computation has made has no flight of an earlier generation. -/
theorem Runs.le_of_madeBy (h : Runs (start now) past m) (hs : m.Stands id k (.computing f g))
    (hmade : m.MadeBy id c) (hc : m.Flies c k' g') : g ≤ g' := by
  obtain ⟨s, hmem, ⟨parent, hcall⟩, rfl⟩ := h.looks_of_flies hc
  obtain ⟨before, after, rfl⟩ := List.append_of_mem hmem
  obtain ⟨hrun, m', hstep, hafter⟩ := h.split
  -- The call has kept its maker, who was computing already when it looked.
  obtain ⟨p, hcall'⟩ := (Runs.cons hstep hafter).keeps_call hcall
  obtain ⟨i, q, hmade⟩ := hmade
  rw [hcall'] at hmade
  injection hmade with hmade
  injection hmade with _ hparent
  subst hparent
  obtain ⟨j, f', g'', hcomputing⟩ := hrun.computing_of_open hcall rfl
  have hr := hrun.registered_of_computing hcomputing
  have hfound := (h.looked_unique (happened_append.mpr (.inl hr)) (h.registered_of_computing hs)).2
  injection hfound with _ hg
  rw [← hg]
  exact (hrun.registered_bounds hr).2.2

/-! ## Along those who wait -/

/-- Whoever waits has a flight. -/
theorem Runs.flies_of_waitsFor (h : Runs (start now) past m) (hw : m.WaitsFor x y) :
    ∃ k g, m.Flies x k g := by
  rcases h.waitsFor_cases hw with ⟨k, f, g, hcomputing, -⟩ | ⟨k, f, g, hjoined, hcomputing⟩
  · exact ⟨k, g, hcomputing.flies⟩
  · exact ⟨k, g, y, f, hcomputing, .inr hjoined⟩

/-- Whoever comes to a call that has a flight, along those who wait, has one too. -/
theorem Runs.flies_of_chain (h : Runs (start now) past m) (hxy : ReflTransGen m.WaitsFor x y)
    (hy : m.Flies y k' g') : ∃ k g, m.Flies x k g := by
  rcases hxy.cases_head with rfl | ⟨z, hxz, -⟩
  · exact ⟨k', g', hy⟩
  · exact h.flies_of_waitsFor hxz

/-- From a call to the one that it waits for the generation does not go down, and within one
generation the key stays or is requested. -/
theorem Runs.requests_of_waitsFor (h : Runs (start now) past m) (hw : m.WaitsFor x y)
    (hx : m.Flies x k g) (hy : m.Flies y k' g') :
    g ≤ g' ∧ (g = g' → ReflTransGen (m.Requests g) k k') := by
  cases hw with
  | made i p hcall hopen =>
    obtain ⟨j, f, g₀, hcomputing⟩ := h.computing_of_open hcall hopen
    obtain ⟨rfl, rfl⟩ := h.flies_unique hcomputing.flies hx
    have hmade : m.MadeBy x y := ⟨i, p, hcall⟩
    refine ⟨h.le_of_madeBy hcomputing hmade hy, ?_⟩
    rintro rfl
    exact .single ⟨x, y, f, hcomputing, hmade, hy⟩
  | joined i f g₀ hjoined hcomputing =>
    obtain ⟨rfl, rfl⟩ := h.flies_unique ⟨y, f, hcomputing, .inr hjoined⟩ hx
    obtain ⟨rfl, rfl⟩ := h.flies_unique hcomputing.flies hy
    exact ⟨Nat.le_refl _, fun _ => .refl⟩

/-- Along those who wait the generation does not go down, and within one generation each key is
requested for the one before. -/
theorem Runs.requests_of_chain (h : Runs (start now) past m) (hxy : ReflTransGen m.WaitsFor x y)
    (hx : m.Flies x k g) (hy : m.Flies y k' g') :
    g ≤ g' ∧ (g = g' → ReflTransGen (m.Requests g) k k') := by
  induction hxy using ReflTransGen.head_induction_on generalizing k g with
  | refl =>
    obtain ⟨rfl, rfl⟩ := h.flies_unique hx hy
    exact ⟨Nat.le_refl _, fun _ => .refl⟩
  | head hxz hzy ih =>
    obtain ⟨i, g₀, hz⟩ := h.flies_of_chain hzy hy
    obtain ⟨hle, hfirst⟩ := h.requests_of_waitsFor hxz hx hz
    obtain ⟨hle', hrest⟩ := ih hz
    refine ⟨Nat.le_trans hle hle', ?_⟩
    rintro rfl
    obtain rfl := Nat.le_antisymm hle hle'
    exact (hfirst rfl).trans (hrest rfl)

/-- The keys of a circle of calls that wait are requested in a circle, in one generation. -/
theorem Runs.requests_of_circle (h : Runs (start now) past m)
    (hs : m.Stands id k (.computing f g)) (hcircle : TransGen m.WaitsFor id id) :
    TransGen (m.Requests g) k k := by
  obtain ⟨c, hw, hrest⟩ := TransGen.head'_iff.mp hcircle
  obtain ⟨k', g', hc⟩ := h.flies_of_chain hrest hs.flies
  obtain ⟨hle, hkeys⟩ := h.requests_of_chain hrest hc hs.flies
  cases hw with
  | made i p hcall hopen =>
    have hmade : m.MadeBy id c := ⟨i, p, hcall⟩
    obtain rfl := Nat.le_antisymm (h.le_of_madeBy hs hmade hc) hle
    exact .head' ⟨id, c, f, hs, hmade, hc⟩ (hkeys rfl)
  | joined i f' g' hjoined hcomputing =>
    have hp := (hs.unique hjoined).2
    contradiction

/-! ## Along the keys requested -/

omit [DecidableEq K] in
/-- Whoever computes a key waits for whoever computes a key that it requested. -/
theorem Requests.waits (hr : m.Requests g k k') :
    ∃ x f y f', m.Stands x k (.computing f g) ∧ m.Stands y k' (.computing f' g) ∧
      TransGen m.WaitsFor x y := by
  obtain ⟨id, c, f, hs, ⟨i, p, hcall⟩, owner, f', hs', howner⟩ := hr
  refine ⟨id, f, owner, f', hs, hs', ?_⟩
  rcases howner with rfl | hj
  · obtain ⟨rfl, rfl⟩ := hs'.unique ⟨_, hcall⟩
    exact .single (.made k' _ hcall rfl)
  · obtain ⟨rfl, rfl⟩ := hj.unique ⟨_, hcall⟩
    exact .head (.made k' _ hcall rfl) (.single (.joined k' f' g hj hs'))

/-- Along keys requested in a generation whoever computes the first waits for whoever computes the
last. -/
theorem Runs.waits_of_requests (h : Runs (start now) past m)
    (hr : TransGen (m.Requests g) k k') :
    ∃ x f y f', m.Stands x k (.computing f g) ∧ m.Stands y k' (.computing f' g) ∧
      TransGen m.WaitsFor x y := by
  induction hr with
  | single hr => exact hr.waits
  | tail _ hr ih =>
    obtain ⟨x, f, y, f', hx, hy, hxy⟩ := ih
    obtain ⟨y', f'', z, f₃, hy', hz, hyz⟩ := hr.waits
    -- One call computes the key in between.
    obtain ⟨rfl, rfl⟩ := h.computing_eq hy hy'
    exact ⟨x, f, z, f₃, hx, hz, hxy.trans hyz⟩

/-- What a computation requests it has asked for. -/
theorem Runs.asked_of_requests (h : Runs (start now) past m) (hr : m.Requests g k k') :
    Asked past k k' := by
  obtain ⟨id, c, f, hs, ⟨i, p, hcall⟩, owner, f', hs', howner⟩ := hr
  have hkey : i = k' := by
    rcases howner with rfl | hj
    · exact (hs'.unique ⟨_, hcall⟩).1.symm
    · exact (hj.unique ⟨_, hcall⟩).1.symm
  subst hkey
  obtain ⟨s, hmem, haction, j, f₀, g₀, hbefore⟩ := h.asked_of_madeBy hcall
  obtain rfl := h.computing_key hmem hbefore hs
  exact ⟨s, hmem, id, f₀, g₀, haction, hbefore⟩

/-! ## Circles -/

/-- In a circle of calls that wait some call computes. -/
theorem Runs.exists_computing_of_circle (h : Runs (start now) past m)
    (hcircle : TransGen m.WaitsFor x x) :
    ∃ id k f g, m.Stands id k (.computing f g) ∧ TransGen m.WaitsFor id id := by
  obtain ⟨y, hxy, hyx⟩ := TransGen.head'_iff.mp hcircle
  rcases h.waitsFor_cases hxy with ⟨k, f, g, hs, -⟩ | ⟨k, f, g, -, hs⟩
  · exact ⟨x, k, f, g, hs, hcircle⟩
  · exact ⟨y, k, f, g, hs, .tail' hyx hxy⟩

/-- Those who wait for calls that wait themselves go on waiting for them. -/
theorem Runs.chain_step (h : Runs (start now) past s.before) (hs : s.LeadsTo m')
    (hxy : TransGen s.before.WaitsFor x y) (hyz : s.before.WaitsFor y z) :
    TransGen m'.WaitsFor x y := by
  induction hxy generalizing z with
  | single hxy => exact .single (h.waitsFor_step hs hxy hyz)
  | tail _ hwy ih => exact (ih hwy).tail (h.waitsFor_step hs hwy hyz)

/-- Calls that wait in a circle wait in it for good. -/
theorem Runs.circle_stays (h : Runs (start now) past m) (hcircle : TransGen m.WaitsFor x x)
    (hafter : Runs m after m') : TransGen m'.WaitsFor x x := by
  induction hafter with
  | refl => exact hcircle
  | step hrun hs ih =>
    obtain ⟨y, hxy, -⟩ := TransGen.head'_iff.mp ih
    exact (h.trans hrun).chain_step hs ih hxy

/-- Two calls that wait for each other go on waiting for each other. -/
theorem Runs.pair_stays (h : Runs (start now) past m) (hxy : m.WaitsFor x y)
    (hyx : m.WaitsFor y x) (hafter : Runs m after m') : m'.WaitsFor x y ∧ m'.WaitsFor y x := by
  induction hafter with
  | refl => exact ⟨hxy, hyx⟩
  | step hrun hs ih =>
    have hbefore := h.trans hrun
    exact ⟨hbefore.waitsFor_step hs ih.1 ih.2, hbefore.waitsFor_step hs ih.2 ih.1⟩

/-- A computation that asks for the key that it computes, in the generation in which it computes,
joins its own flight, and waits for itself. -/
theorem Runs.waits_for_own (h : Runs (start now) (before ++ s :: after) m)
    (hs : s.before.Stands id k (.computing f s.before.cache.generation))
    (hmade : s.before.MadeBy id c) (hlooks : s.Looks c k found) :
    found = .joined f ∧ m.WaitsFor id c ∧ m.WaitsFor c id := by
  obtain ⟨hrun, m', hstep, hafter⟩ := h.split
  obtain rfl := hrun.joins_of_registered hlooks (hrun.registered_of_computing hs)
    fun _ => hrun.not_landed_of_computing hs
  -- After the look the two wait for each other.
  have hjoined : m'.Stands c k (.joined f) := hlooks.stands hstep
  have hcomputing : m'.Stands id k (.computing f s.before.cache.generation) :=
    hstep.computing_iff.mpr (.inl ⟨hs, fun _ => hlooks.not_lands⟩)
  obtain ⟨i, p, hcall⟩ := hmade
  obtain ⟨p', hcall'⟩ := hstep.keeps_call hcall
  obtain ⟨rfl, rfl⟩ := hjoined.unique ⟨_, hcall'⟩
  have hpair := (hrun.step hstep).pair_stays (.made k _ hcall' rfl)
    (.joined k f _ hjoined hcomputing) hafter
  exact ⟨rfl, hpair⟩

/-- Of the calls that compute, those wait in a circle whose keys were requested in a circle within
one generation; a computation that asks for its own key in its own generation joins its own flight
and waits for itself; whoever waits in a circle waits for good and is never answered. Where the keys
asked for close no circle, nobody waits in one, and where nobody does, every call without an answer
can take a step or comes, along those that it waits for, to one that can. -/
theorem Runs.circles_of_requests (h : Runs (start now) past m) :
    (∀ k g, (∃ id f, m.Stands id k (.computing f g) ∧ TransGen m.WaitsFor id id) ↔
      TransGen (m.Requests g) k k) ∧
    (∀ before s after, past = before ++ s :: after → ∀ id c k f found,
      s.before.Stands id k (.computing f s.before.cache.generation) → s.before.MadeBy id c →
      s.Looks c k found → found = .joined f ∧ m.WaitsFor id c ∧ m.WaitsFor c id) ∧
    (∀ id, TransGen m.WaitsFor id id → ∀ after m', Runs m after m' →
      TransGen m'.WaitsFor id id ∧ m'.answer? id = none ∧ ¬m'.MayStep id) ∧
    ((∀ k, ¬TransGen (Asked past) k k) → ∀ id, ¬TransGen m.WaitsFor id id) ∧
    ((∀ id, ¬TransGen m.WaitsFor id id) → ∀ id k p, m.Stands id k p → p.isAnswered = false →
      ∃ c, ReflTransGen m.WaitsFor id c ∧ m.MayStep c) := by
  refine ⟨?_, ?_, ?_, ?_, ?_⟩
  · intro k g
    constructor
    · rintro ⟨id, f, hs, hcircle⟩
      exact h.requests_of_circle hs hcircle
    · intro hr
      obtain ⟨x, f, y, f', hx, hy, hxy⟩ := h.waits_of_requests hr
      obtain ⟨rfl, -⟩ := h.computing_eq hx hy
      exact ⟨x, f, hx, hxy⟩
  · rintro before s after rfl id c k f found hs hmade hlooks
    exact h.waits_for_own hs hmade hlooks
  · -- A circle stays, so that a call in it is never answered, and never again may take a step.
    intro id hcircle after m' hafter
    have hstays := h.circle_stays hcircle hafter
    obtain ⟨y, hw, -⟩ := TransGen.head'_iff.mp hstays
    have hrun := h.trans hafter
    exact ⟨hstays, hrun.answer_of_waitsFor hw, hrun.not_mayStep_of_waitsFor hw⟩
  · -- A circle of waiting calls is one of keys, each asked for while the one before is computed.
    intro hasked x hcircle
    obtain ⟨id, k, f, g, hs, hcircle⟩ := h.exists_computing_of_circle hcircle
    have hkeys := h.requests_of_circle hs hcircle
    exact hasked k (TransGen.mono (fun _ _ hr => h.asked_of_requests hr) k k hkeys)
  · intro hnone id k p hs hopen
    exact h.exists_mayStep hnone hs hopen

end Machine

namespace Crossing

/-- The computation of one key asks for a second one, whose computation asks for the first one. -/
def actions : List (Action String Nat) := [
  .call none "a", .check 0, .look 0, .call none "b", .check 1, .look 1,
  .call (some 0) "b", .check 2, .look 2, .call (some 1) "a", .check 3, .look 3]

/-- The steps taken. -/
def past : List (Machine.Step String Nat) := Machine.trace .noon actions

/-- The machine that they lead to. -/
def final : Machine String Nat := actions.foldl Machine.step .noon

/-- The two computations wait for each other, since the keys are requested in a circle. -/
theorem both_wait :
    (∃ id f, final.Stands id "a" (.computing f 1) ∧ Relation.TransGen final.WaitsFor id id) ∧
      Relation.TransGen (final.Requests 1) "a" "a" := by
  have hrun : Machine.Runs .noon past final := Machine.runs_trace rfl
  have hab : final.Requests 1 "a" "b" :=
    ⟨0, 2, 0, ⟨none, rfl⟩, ⟨_, _, rfl⟩, 1, 1, ⟨none, rfl⟩, .inr ⟨_, rfl⟩⟩
  have hba : final.Requests 1 "b" "a" :=
    ⟨1, 3, 1, ⟨none, rfl⟩, ⟨_, _, rfl⟩, 0, 0, ⟨none, rfl⟩, .inr ⟨_, rfl⟩⟩
  have hkeys : Relation.TransGen (final.Requests 1) "a" "a" := .tail (.single hab) hba
  exact ⟨(hrun.circles_of_requests.1 "a" 1).mpr hkeys, hkeys⟩

end Crossing

namespace OwnKey

/-- A computation asks for the key that it computes. -/
def actions : List (Action String Nat) := [
  .call none "k", .check 0, .look 0, .call (some 0) "k", .check 1, .look 1]

/-- The steps taken. -/
def past : List (Machine.Step String Nat) := Machine.trace .noon actions

/-- The machine that they lead to. -/
def final : Machine String Nat := actions.foldl Machine.step .noon

/-- A computation that asks for the key that it computes waits for its own flight, and neither it
nor the call that it made can take a step. -/
theorem waits_for_itself :
    Machine.Runs .noon past final ∧ final.Stands 0 "k" (.computing 0 1) ∧
      Relation.TransGen final.WaitsFor 0 0 ∧ final.answer? 1 = none ∧
      ¬final.MayStep 0 ∧ ¬final.MayStep 1 := by
  have hrun : Machine.Runs .noon past final := Machine.runs_trace rfl
  have hcomputing : final.Stands 0 "k" (.computing 0 1) := ⟨none, rfl⟩
  have hmade : final.WaitsFor 0 1 := .made "k" (.joined 0) rfl rfl
  have hjoined : final.WaitsFor 1 0 := .joined "k" 0 1 ⟨_, rfl⟩ hcomputing
  exact ⟨hrun, hcomputing, .tail (.single hmade) hjoined, rfl,
    hrun.not_mayStep_of_waitsFor hmade, hrun.not_mayStep_of_waitsFor hjoined⟩

end OwnKey
end Stratum
