import Mathlib.Tactic.SplitIfs
import Stratum.Cache.Machine
import Stratum.Proofs.Cache.Operations

/-!
# What a step of the calls does

A step is taken from a machine by an action. Whatever the action, it has one of five effects: it
leaves the cache and every call that has looked alone, it clears, it looks a key up, it lands a
flight, or it hands a joined call what its flight landed with. The rest of the file reads off from
these what a step does to the calls, to what has landed, and to the cache.
-/

namespace Stratum

/-- The phase that a look-up brings a call to. -/
def Lookup.phase {V : Type} : Lookup V → Phase V
  | .hit v => .answered (.value v)
  | .joined flight => .joined flight
  | .started flight generation => .computing flight generation

/-- Whether a call is past its look-up. -/
def Phase.isPastLook {V : Type} : Phase V → Bool
  | .called => false
  | .checked => false
  | _ => true

/-- Whether a call has a flight, its own or one that it joined. -/
def Phase.hasFlight {V : Type} : Phase V → Bool
  | .joined _ => true
  | .computing _ _ => true
  | _ => false

namespace Machine

variable {K V : Type}

/-! ## Where calls stand -/

/-- A call has a key and stands at a phase. -/
def Stands (m : Machine K V) (id : Nat) (k : K) (p : Phase V) : Prop :=
  ∃ parent, m.calls[id]? = some ⟨k, parent, p⟩

/-- A call has one key and stands at one phase. -/
theorem Stands.unique {m : Machine K V} {id : Nat} {j k : K} {p q : Phase V}
    (hp : m.Stands id j p) (hq : m.Stands id k q) : j = k ∧ p = q := by
  obtain ⟨_, hp⟩ := hp
  obtain ⟨_, hq⟩ := hq
  rw [hp] at hq
  injection hq with hq
  injection hq with hk _ hphase
  exact ⟨hk, hphase⟩

/-- Where a call stands is a matter of the calls alone. -/
theorem stands_congr {m m' : Machine K V} (h : m'.calls = m.calls) {id : Nat} {k : K}
    {p : Phase V} : m'.Stands id k p ↔ m.Stands id k p := by
  unfold Stands
  rw [h]

/-- At the start no call stands anywhere. -/
theorem not_stands_start {now : Moment} {id : Nat} {k : K} {p : Phase V} :
    ¬(start now : Machine K V).Stands id k p := by
  rintro ⟨parent, h⟩
  simp [start] at h

/-- The call that was brought to a phase stands there with the key it had, and the other calls stand
where they stood. -/
theorem stands_setPhase {m : Machine K V} {id j : Nat} {k : K} {p q : Phase V} :
    (m.setPhase id p).Stands j k q ↔
      (j = id ∧ q = p ∧ ∃ o, m.Stands j k o) ∨ (j ≠ id ∧ m.Stands j k q) := by
  unfold Stands setPhase
  rw [List.getElem?_modify]
  by_cases hj : j = id
  · subst hj
    rcases hc : m.calls[j]? with _ | ⟨key, parent, phase⟩ <;> simp
    tauto
  · simp [hj, Ne.symm hj]

/-- A call brought to a phase stands there. -/
theorem Stands.setPhase {m : Machine K V} {id : Nat} {k : K} {o : Phase V} (h : m.Stands id k o)
    (p : Phase V) : (m.setPhase id p).Stands id k p :=
  stands_setPhase.mpr (.inl ⟨rfl, rfl, o, h⟩)

/-- The calls that are past their look-up stand where they stood, and no others got a flight. -/
structure Keeps (m m' : Machine K V) : Prop where
  stay : ∀ {id k p}, m.Stands id k p → p.isPastLook = true → m'.Stands id k p
  back : ∀ {id k p}, m'.Stands id k p → p.hasFlight = true → m.Stands id k p

/-- The same calls stand where they stood. -/
theorem Keeps.of_calls_eq {m m' : Machine K V} (h : m'.calls = m.calls) : Keeps m m' :=
  ⟨fun hs _ => (stands_congr h).mpr hs, fun hs _ => (stands_congr h).mp hs⟩

/-- A new call leaves the others where they stand. -/
theorem keeps_append (m : Machine K V) (k : K) (parent : Option Nat) :
    Keeps m { m with calls := m.calls ++ [⟨k, parent, .called⟩] } := by
  refine ⟨?_, ?_⟩
  · rintro id j p ⟨parent', hcall⟩ -
    have hlt : id < m.calls.length := (List.getElem?_eq_some_iff.mp hcall).1
    exact ⟨parent', by rw [List.getElem?_append_left hlt, hcall]⟩
  · rintro id j p ⟨parent', hcall⟩ hp
    rcases Nat.lt_or_ge id m.calls.length with hlt | hge
    · rw [List.getElem?_append_left hlt] at hcall
      exact ⟨parent', hcall⟩
    · -- The new call has no flight.
      rw [List.getElem?_append_right hge] at hcall
      have hnew := List.mem_of_getElem? hcall
      simp only [List.mem_singleton, Call.mk.injEq] at hnew
      rw [hnew.2.2] at hp
      contradiction

/-- A call that has not looked may be brought to a phase without a flight, and the calls past their
look-up stand where they stood. -/
theorem Stands.keeps_setPhase {m : Machine K V} {id : Nat} {k : K} {p : Phase V}
    (h : m.Stands id k .called) (hp : p.hasFlight = false) : Keeps m (m.setPhase id p) := by
  refine ⟨?_, ?_⟩
  · intro j i q hj hq
    refine stands_setPhase.mpr (.inr ⟨?_, hj⟩)
    rintro rfl
    rw [(hj.unique h).2] at hq
    contradiction
  · intro j i q hj hq
    rcases stands_setPhase.mp hj with ⟨-, rfl, -⟩ | ⟨-, hj⟩
    · rw [hp] at hq
      contradiction
    · exact hj

/-- Whatever the number of failures, a landing tells the result of its computation. -/
theorem result_eq_of_landing_eq {n n' : Nat} {result result' : Except Failure (Option V)}
    (h : landing n result = landing n' result') : result = result' := by
  rcases result with e | _ | v <;> rcases result' with e' | _ | v' <;> simp_all [landing]

/-- A result leaves a value in the cache if it is one. -/
theorem kept_eq_some {result : Except Failure (Option V)} {v : V} :
    kept result = some v ↔ result = .ok (some v) := by
  rcases result with e | _ | w <;> simp [kept]

/-! ## Steps -/

/-- A step that is taken: the machine before it, and the action. -/
structure Step (K V : Type) where
  before : Machine K V
  action : Action K V

namespace Step

/-- A step lands the flight of a call with the result of its computation. -/
def Lands (s : Step K V) (id : Nat) (k : K) (flight generation : Nat)
    (result : Except Failure (Option V)) : Prop :=
  s.action = .finish id result ∧ s.before.Stands id k (.computing flight generation)

/-- A step clears the cache, on demand or because it is expired. -/
def Clears (s : Step K V) : Prop :=
  s.action = .clear ∨ ∃ id, s.action = .check id ∧ s.before.cache.isExpired s.before.now = .ok true

variable {s : Step K V} {id : Nat} {k : K} {f g : Nat} {result : Except Failure (Option V)}

/-- A step lands one flight, of one call. -/
theorem Lands.unique {j : Nat} {i : K} {f' g' : Nat} {result' : Except Failure (Option V)}
    (hl : s.Lands id k f g result) (hl' : s.Lands j i f' g' result') :
    id = j ∧ k = i ∧ f = f' ∧ g = g' ∧ result = result' := by
  obtain ⟨haction, hstands⟩ := hl
  obtain ⟨haction', hstands'⟩ := hl'
  rw [haction] at haction'
  injection haction' with hid hresult
  subst hid
  obtain ⟨rfl, hphase⟩ := hstands.unique hstands'
  injection hphase with hf hg
  exact ⟨rfl, rfl, hf, hg, hresult⟩

/-- A step that clears lands no flight. -/
theorem Clears.not_lands (hc : s.Clears) : ¬s.Lands id k f g result := by
  rintro ⟨haction, -⟩
  rcases hc with hc | ⟨j, hc, -⟩ <;>
  · rw [haction] at hc
    contradiction

end Step

/-! ## The five effects -/

/-- A check refreshes the cache, and its call may look or is answered that the clock failed. -/
theorem check_eq (m : Machine K V) (id : Nat) :
    ∃ p log, p.hasFlight = false ∧
      m.check id = { m with cache := (m.cache.refresh m.now).1, log }.setPhase id p := by
  unfold check
  rcases hr : m.cache.refresh m.now with ⟨cache, fault | cleared⟩
  · exact ⟨_, m.log, rfl, rfl⟩
  · exact ⟨_, _, rfl, rfl⟩


/-- A check changes the cache as its refresh does. -/
theorem cache_check (m : Machine K V) (id : Nat) :
    (m.check id).cache = (m.cache.refresh m.now).1 := by
  obtain ⟨p, log, -, heq⟩ := m.check_eq id
  rw [heq]
  rfl

/-- A clear changes the cache and the log alone. -/
theorem clear_eq (m : Machine K V) :
    ∃ log, m.clear = { m with cache := (m.cache.clear m.now).1, log } := by
  unfold clear
  rcases m.cache.clear m.now with ⟨cache, _ | fault⟩
  · exact ⟨_, rfl⟩
  · exact ⟨m.log, rfl⟩

variable [DecidableEq K]

/-- A look brings its call to the phase that the look-up says. -/
theorem look_eq (m : Machine K V) (id : Nat) (k : K) :
    m.look id k =
      { m with cache := (m.cache.lookup k).2 }.setPhase id (m.cache.lookup k).1.phase := by
  unfold look
  rcases m.cache.lookup k with ⟨found | found | found, cache⟩ <;> rfl

/-- After a look the call that looked stands where the look-up says. -/
theorem stands_look {m : Machine K V} {id j : Nat} {k i : K} {q : Phase V} :
    (m.look id k).Stands j i q ↔
      (j = id ∧ q = (m.cache.lookup k).1.phase ∧ ∃ o, m.Stands j i o) ∨
        (j ≠ id ∧ m.Stands j i q) := by
  rw [look_eq]
  exact stands_setPhase

/-- After a computation has ended its call has an answer. -/
theorem stands_finish {m : Machine K V} {id j : Nat} {k i : K} {f g : Nat}
    {result : Except Failure (Option V)} {q : Phase V} :
    (m.finish id k f g result).Stands j i q ↔
      (j = id ∧ q = .answered (landing m.failures result).toOwner ∧ ∃ o, m.Stands j i o) ∨
        (j ≠ id ∧ m.Stands j i q) :=
  stands_setPhase

namespace Step

/-- A step is taken and leads to a machine. -/
def LeadsTo (s : Step K V) (m' : Machine K V) : Prop := s.before.step? s.action = some m'

/-- A step looks the key of a call up and finds something. -/
def Looks (s : Step K V) (id : Nat) (k : K) (found : Lookup V) : Prop :=
  s.action = .look id ∧ s.before.Stands id k .checked ∧ (s.before.cache.lookup k).1 = found

variable {s : Step K V} {m' : Machine K V} {id : Nat} {k : K} {f g : Nat} {p : Phase V}
  {found : Lookup V} {result : Except Failure (Option V)}

/-- A step looks one key up, for one call. -/
theorem Looks.unique {j : Nat} {i : K} {found' : Lookup V} (hl : s.Looks id k found)
    (hl' : s.Looks j i found') : id = j ∧ k = i ∧ found = found' := by
  obtain ⟨haction, hstands, rfl⟩ := hl
  obtain ⟨haction', hstands', rfl⟩ := hl'
  rw [haction] at haction'
  injection haction' with hid
  subst hid
  obtain ⟨rfl, -⟩ := hstands.unique hstands'
  exact ⟨rfl, rfl, rfl⟩

/-- A step that looks a key up lands no flight. -/
theorem Looks.not_lands {j : Nat} {i : K} (hl : s.Looks id k found) : ¬s.Lands j i f g result := by
  rintro ⟨haction, -⟩
  rw [hl.1] at haction
  contradiction

/-- A step that clears looks no key up. -/
theorem Clears.not_looks (hc : s.Clears) : ¬s.Looks id k found := by
  rintro ⟨haction, -⟩
  rcases hc with hc | ⟨j, hc, -⟩ <;>
  · rw [haction] at hc
    contradiction

/-- The step of a look looks a key up. -/
theorem LeadsTo.looks (h : s.LeadsTo m') (haction : s.action = .look id) :
    ∃ k, s.Looks id k (s.before.cache.lookup k).1 := by
  simp only [LeadsTo, haction, step?] at h
  split at h
  · rename_i k parent hcall
    exact ⟨k, haction, ⟨parent, hcall⟩, rfl⟩
  · contradiction

/-- The step of an end of a computation lands a flight. -/
theorem LeadsTo.lands (h : s.LeadsTo m') (haction : s.action = .finish id result) :
    ∃ k f g, s.Lands id k f g result := by
  simp only [LeadsTo, haction, step?] at h
  split at h
  · rename_i k parent f g hcall
    exact ⟨k, f, g, haction, parent, hcall⟩
  · contradiction

/-- A step that looks a key up leads to the machine after the look. -/
theorem Looks.eq_look (hl : s.Looks id k found) (h : s.LeadsTo m') :
    m' = s.before.look id k := by
  obtain ⟨haction, ⟨parent, hcall⟩, -⟩ := hl
  simp only [LeadsTo, haction, step?, hcall, Option.some.injEq] at h
  exact h.symm

/-- A step that lands a flight leads to the machine after the end of its computation. -/
theorem Lands.eq_finish (hl : s.Lands id k f g result) (h : s.LeadsTo m') :
    m' = s.before.finish id k f g result := by
  obtain ⟨haction, parent, hcall⟩ := hl
  simp only [LeadsTo, haction, step?, hcall] at h
  split_ifs at h
  injection h with h
  exact h.symm

/-- What a step does to the machine it is taken from. -/
inductive Effect (s : Step K V) (m' : Machine K V) : Prop
  | none (hcache : m'.cache = s.before.cache) (hlanded : m'.landed = s.before.landed)
      (hkeeps : Keeps s.before m')
  | cleared (hclears : s.Clears) (hcache : m'.cache = (s.before.cache.clear s.before.now).1)
      (hlanded : m'.landed = s.before.landed) (hkeeps : Keeps s.before m')
  | looked (id : Nat) (k : K) (hlooks : s.Looks id k (s.before.cache.lookup k).1)
      (hm' : m' = s.before.look id k)
  | landed (id : Nat) (k : K) (f g : Nat) (result : Except Failure (Option V))
      (hlands : s.Lands id k f g result) (hm' : m' = s.before.finish id k f g result)
  | received (id : Nat) (k : K) (f : Nat) (l : Landing V) (haction : s.action = .receive id)
      (hstands : s.before.Stands id k (.joined f)) (hl : s.before.landed.lookup f = some l)
      (hm' : m' = s.before.setPhase id (.answered l.toJoined))

/-- A step has one of the five effects. -/
theorem LeadsTo.effect (h : s.LeadsTo m') : s.Effect m' := by
  have hstep := h
  obtain ⟨m, a⟩ := s
  unfold LeadsTo at h
  cases a with
  | call parent key =>
    simp only [step?] at h
    split_ifs at h
    injection h with h
    subst h
    exact .none rfl rfl (keeps_append m key parent)
  | check id =>
    simp only [step?] at h
    split at h
    · rename_i key parent hcall
      injection h with h
      subst h
      obtain ⟨p, log, hp, heq⟩ := m.check_eq id
      have hstands : m.Stands id key .called := ⟨parent, hcall⟩
      have hset := hstands.keeps_setPhase hp
      have hcache := m.cache_check id
      have hlanded : (m.check id).landed = m.landed := by rw [heq]; rfl
      have hcalls : (m.check id).calls = (m.setPhase id p).calls := by rw [heq]; rfl
      have hkeeps : Keeps m (m.check id) :=
        ⟨fun hs hq => (stands_congr hcalls).mpr (hset.stay hs hq),
          fun hs hq => hset.back ((stands_congr hcalls).mp hs) hq⟩
      -- A refresh clears the cache or leaves it alone, also when the clock fails it.
      by_cases hexp : m.cache.isExpired m.now = .ok true
      · rw [Cache.refresh_fst hexp] at hcache
        exact .cleared (.inr ⟨id, rfl, hexp⟩) hcache hlanded hkeeps
      · rw [Cache.refresh_fst_of_ne hexp] at hcache
        exact .none hcache hlanded hkeeps
    · contradiction
  | look id =>
    obtain ⟨key, hlooks⟩ := hstep.looks rfl
    exact .looked id key hlooks (hlooks.eq_look hstep)
  | finish id result =>
    obtain ⟨key, f, g, hlands⟩ := hstep.lands rfl
    exact .landed id key f g result hlands (hlands.eq_finish hstep)
  | receive id =>
    simp only [step?] at h
    split at h
    · rename_i key parent f hcall
      obtain ⟨l, hl, h⟩ := Option.map_eq_some_iff.mp h
      exact .received id key f l rfl ⟨parent, hcall⟩ hl h.symm
    · contradiction
  | clear =>
    simp only [step?, Option.some.injEq] at h
    subst h
    obtain ⟨log, heq⟩ := m.clear_eq
    rw [heq]
    exact .cleared (.inl rfl) rfl rfl (.of_calls_eq rfl)
  | setClock now =>
    simp only [step?, Option.some.injEq] at h
    subst h
    exact .none rfl rfl (.of_calls_eq rfl)

/-! ## Clearing, looking and landing -/

/-- A step that clears changes the cache as the clear does. -/
theorem Clears.cache (hc : s.Clears) (h : s.LeadsTo m') :
    m'.cache = (s.before.cache.clear s.before.now).1 := by
  unfold LeadsTo at h
  rcases hc with haction | ⟨j, haction, hexp⟩
  · simp only [haction, step?, Option.some.injEq] at h
    obtain ⟨log, heq⟩ := s.before.clear_eq
    rw [← h, heq]
  · simp only [haction, step?] at h
    split at h
    · injection h with h
      rw [← h, cache_check, Cache.refresh_fst hexp]
    · contradiction

/-- After its look a call stands at the phase that the look-up says. -/
theorem Looks.stands (hl : s.Looks id k found) (h : s.LeadsTo m') :
    m'.Stands id k found.phase := by
  rw [hl.eq_look h, look_eq, hl.2.2]
  exact hl.2.1.setPhase _

/-- A look changes the cache as the look-up does. -/
theorem Looks.cache (hl : s.Looks id k found) (h : s.LeadsTo m') :
    m'.cache = (s.before.cache.lookup k).2 := by
  rw [hl.eq_look h, look_eq]
  rfl

/-- After its flight landed a call has its answer. -/
theorem Lands.stands (hl : s.Lands id k f g result) (h : s.LeadsTo m') :
    m'.Stands id k (.answered (landing s.before.failures result).toOwner) := by
  rw [hl.eq_finish h]
  exact hl.2.setPhase _

/-- A landing changes the cache as the landing of its flight does. -/
theorem Lands.cache (hl : s.Lands id k f g result) (h : s.LeadsTo m') :
    m'.cache = s.before.cache.land k f g (kept result) := by
  rw [hl.eq_finish h]
  rfl

/-- A landing adds what its flight landed with. -/
theorem Lands.landed (hl : s.Lands id k f g result) (h : s.LeadsTo m') :
    m'.landed = (f, landing s.before.failures result) :: s.before.landed := by
  rw [hl.eq_finish h]
  rfl

/-! ## What a step leaves and what it changes -/

/-- A call that has a flight after a step had it before, or has just looked. -/
theorem LeadsTo.of_hasFlight (h : s.LeadsTo m') (hs : m'.Stands id k p)
    (hp : p.hasFlight = true) :
    s.before.Stands id k p ∨ ∃ found, s.Looks id k found ∧ found.phase = p := by
  -- Whoever was moved to an answer has no flight, so that the call is another one.
  have hmoved : ∀ {j a}, m' = s.before.setPhase j (.answered a) → s.before.Stands id k p := by
    rintro j a rfl
    rcases stands_setPhase.mp hs with ⟨-, rfl, -⟩ | ⟨-, hs⟩
    · contradiction
    · exact hs
  cases h.effect with
  | none _ _ hkeeps => exact .inl (hkeeps.back hs hp)
  | cleared _ _ _ hkeeps => exact .inl (hkeeps.back hs hp)
  | looked j i hlooks hm' =>
    rw [hm', stands_look] at hs
    rcases hs with ⟨rfl, hphase, o, hs⟩ | ⟨-, hs⟩
    · obtain ⟨rfl, -⟩ := hlooks.2.1.unique hs
      exact .inr ⟨_, hlooks, hphase.symm⟩
    · exact .inl hs
  | landed j i f g result _ hm' =>
    rw [hm', stands_finish] at hs
    rcases hs with ⟨-, rfl, -⟩ | ⟨-, hs⟩
    · contradiction
    · exact .inl hs
  | received j i f l _ _ _ hm' => exact .inl (hmoved hm')

/-- A call past its look-up stays where it stands, unless its flight lands or it gets what the
flight that it joined has landed with. -/
theorem LeadsTo.stays (h : s.LeadsTo m') (hs : s.before.Stands id k p)
    (hp : p.isPastLook = true) :
    m'.Stands id k p ∨ (∃ f g result, p = .computing f g ∧ s.Lands id k f g result) ∨
      ∃ f l, p = .joined f ∧ s.before.landed.lookup f = some l ∧
        m'.Stands id k (.answered l.toJoined) := by
  cases h.effect with
  | none _ _ hkeeps => exact .inl (hkeeps.stay hs hp)
  | cleared _ _ _ hkeeps => exact .inl (hkeeps.stay hs hp)
  | looked j i hlooks hm' =>
    rw [hm', stands_look]
    -- The call that looks is not the one at hand, for that one is past its look-up.
    refine .inl (.inr ⟨?_, hs⟩)
    rintro rfl
    rw [(hs.unique hlooks.2.1).2] at hp
    contradiction
  | landed j i f g result hlands hm' =>
    by_cases hj : id = j
    · subst hj
      obtain ⟨rfl, rfl⟩ := hs.unique hlands.2
      exact .inr (.inl ⟨f, g, result, rfl, hlands⟩)
    · rw [hm', stands_finish]
      exact .inl (.inr ⟨hj, hs⟩)
  | received j i f l _ hjoined hl hm' =>
    by_cases hj : id = j
    · subst hj
      obtain ⟨rfl, rfl⟩ := hs.unique hjoined
      exact .inr (.inr ⟨f, l, rfl, hl, hm' ▸ hs.setPhase _⟩)
    · rw [hm', stands_setPhase]
      exact .inl (.inr ⟨hj, hs⟩)

/-- A call that joined a flight and gets what the flight landed with is answered with it. -/
theorem LeadsTo.answers (h : s.LeadsTo m') (haction : s.action = .receive id)
    (hs : s.before.Stands id k (.joined f)) :
    ∃ l, s.before.landed.lookup f = some l ∧ m'.Stands id k (.answered l.toJoined) := by
  have hset := hs.setPhase
  obtain ⟨parent, hcall⟩ := hs
  simp only [LeadsTo, haction, step?, hcall] at h
  obtain ⟨l, hl, rfl⟩ := Option.map_eq_some_iff.mp h
  exact ⟨l, hl, hset _⟩

/-- A call that joined a flight is answered by its own step only. -/
theorem LeadsTo.receives (h : s.LeadsTo m') (hs : s.before.Stands id k (.joined f)) {a : Answer V}
    (ha : m'.Stands id k (.answered a)) : s.action = .receive id := by
  have hmoved : ¬m'.Stands id k (.joined f) := by
    intro hjoined
    have hphase := (ha.unique hjoined).2
    contradiction
  cases h.effect with
  | none _ _ hkeeps => exact absurd (hkeeps.stay hs rfl) hmoved
  | cleared _ _ _ hkeeps => exact absurd (hkeeps.stay hs rfl) hmoved
  | looked j i hlooks hm' =>
    rw [hm', stands_look] at hmoved
    refine absurd (.inr ⟨?_, hs⟩) hmoved
    rintro rfl
    have hphase := (hs.unique hlooks.2.1).2
    contradiction
  | landed j i f' g' result' hlands hm' =>
    rw [hm', stands_finish] at hmoved
    refine absurd (.inr ⟨?_, hs⟩) hmoved
    rintro rfl
    have hphase := (hs.unique hlands.2).2
    contradiction
  | received j i f' l haction _ _ hm' =>
    by_cases hj : id = j
    · rw [haction, hj]
    · rw [hm', stands_setPhase] at hmoved
      exact absurd (.inr ⟨hj, hs⟩) hmoved

/-- An answered call stays answered. -/
theorem LeadsTo.stays_answered (h : s.LeadsTo m') {a : Answer V}
    (hs : s.before.Stands id k (.answered a)) : m'.Stands id k (.answered a) := by
  rcases h.stays hs rfl with hs | ⟨f, g, result, hp, -⟩ | ⟨f, l, hp, -⟩
  · exact hs
  · contradiction
  · contradiction

/-- A call computes after a step if it did before and its flight does not land, or if it has just
registered its flight. -/
theorem LeadsTo.computing_iff (h : s.LeadsTo m') :
    m'.Stands id k (.computing f g) ↔
      (s.before.Stands id k (.computing f g) ∧ ∀ result, ¬s.Lands id k f g result) ∨
        s.Looks id k (.started f g) := by
  constructor
  · intro hs
    rcases h.of_hasFlight hs rfl with hbefore | ⟨found, hlooks, hphase⟩
    · -- Had the flight landed, its call would be answered by now.
      refine .inl ⟨hbefore, fun result hlands => ?_⟩
      have hanswered := (hs.unique (hlands.stands h)).2
      contradiction
    · cases found with
      | started f' g' =>
        injection hphase with hf hg
        subst hf hg
        exact .inr hlooks
      | hit v => contradiction
      | joined f' => contradiction
  · rintro (⟨hs, hlands⟩ | hlooks)
    · rcases h.stays hs rfl with hs | ⟨f', g', result, hp, hl⟩ | ⟨f', l, hp, -⟩
      · exact hs
      · injection hp with hf hg
        subst hf hg
        exact absurd hl (hlands result)
      · contradiction
    · exact hlooks.stands h

/-- A step registers no flight and lands none. -/
def Quiet (s : Step K V) : Prop :=
  (∀ id k f g, ¬s.Looks id k (.started f g)) ∧ ∀ id k f g result, ¬s.Lands id k f g result

/-- What a step does to the cache. -/
theorem LeadsTo.cache_cases (h : s.LeadsTo m') :
    (s.Quiet ∧ m'.cache = s.before.cache) ∨
      (s.Clears ∧ m'.cache = (s.before.cache.clear s.before.now).1) ∨
      (∃ id k f g, s.Looks id k (.started f g) ∧ m'.cache = (s.before.cache.lookup k).2) ∨
      ∃ id k f g result, s.Lands id k f g result ∧
        m'.cache = s.before.cache.land k f g (kept result) := by
  by_cases hlooks : ∃ id k f g, s.Looks id k (.started f g)
  · obtain ⟨id, k, f, g, hlooks⟩ := hlooks
    exact .inr (.inr (.inl ⟨id, k, f, g, hlooks, hlooks.cache h⟩))
  by_cases hlands : ∃ id k f g result, s.Lands id k f g result
  · obtain ⟨id, k, f, g, result, hlands⟩ := hlands
    exact .inr (.inr (.inr ⟨id, k, f, g, result, hlands, hlands.cache h⟩))
  -- What is left clears, or does nothing to the cache.
  have hquiet : s.Quiet :=
    ⟨fun id k f g hl => hlooks ⟨id, k, f, g, hl⟩,
      fun id k f g result hl => hlands ⟨id, k, f, g, result, hl⟩⟩
  cases h.effect with
  | none hcache => exact .inl ⟨hquiet, hcache⟩
  | cleared hclears hcache => exact .inr (.inl ⟨hclears, hcache⟩)
  | looked id k hl _ =>
    have hsame := Cache.lookup_snd_of_ne fun f g hfound => hquiet.1 id k f g (hfound ▸ hl)
    exact .inl ⟨hquiet, (hl.cache h).trans hsame⟩
  | landed id k f g result hl _ => exact absurd hl (hquiet.2 id k f g result)
  | received id k f l _ _ _ hm' => exact .inl ⟨hquiet, hm' ▸ rfl⟩

/-- What a step does to what has landed. -/
theorem LeadsTo.landed_cases (h : s.LeadsTo m') :
    m'.landed = s.before.landed ∨
      ∃ id k f g result, s.Lands id k f g result ∧
        m'.landed = (f, landing s.before.failures result) :: s.before.landed := by
  cases h.effect with
  | none _ hlanded => exact .inl hlanded
  | cleared _ _ hlanded => exact .inl hlanded
  | looked id k _ hm' => exact .inl (by rw [hm', look_eq]; rfl)
  | landed id k f g result hlands _ =>
    exact .inr ⟨id, k, f, g, result, hlands, hlands.landed h⟩
  | received id k f l _ _ _ hm' => exact .inl (hm' ▸ rfl)

end Step
end Machine
end Stratum
