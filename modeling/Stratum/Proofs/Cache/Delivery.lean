import Stratum.Proofs.Cache.Moves

/-!
# One outcome for all who joined

The call that computes and the calls that joined its flight end alike. What the computation returns
they all return. What it raises goes to the call that computed; each of the others gets an error of
its own, made anew of that one as it is by then, unless the class cannot make it anew.
-/

namespace Stratum
namespace Delivery

open Machine (Step Landed Looked landing happened_append happened_snoc not_happened_nil)

variable {K V : Type} [DecidableEq K] {d d' : Delivery K V} {move : Move K V}

/-! ## Runs -/

/-- The steps of the machine that moves from the start take, and what they lead to. -/
inductive Runs (now : Moment) : List (Step K V) → Delivery K V → Prop
  | start : Runs now [] (Delivery.start now)
  | move {past : List (Step K V)} {d d' : Delivery K V} {move : Move K V} :
      Runs now past d → d.step? move = some d' → Runs now (past ++ d.taken move) d'

variable {now : Moment} {past : List (Step K V)} {id id' owner f f' g o c : Nat} {k k' i : K}
  {e : Failure} {a : Answer V}

/-- What holds at the start and lasts through the effects of moves holds after every run. -/
theorem Runs.induct
    {motive : (past : List (Step K V)) → (d : Delivery K V) → Runs now past d → Prop}
    (start : motive [] (.start now) .start)
    (move : ∀ {past d d' steps} (h : Runs now past d) (h' : Runs now (past ++ steps) d'),
      motive past d h → Effect d d' steps → motive (past ++ steps) d' h')
    {past : List (Step K V)} {d : Delivery K V} (h : Runs now past d) : motive past d h := by
  induction h with
  | start => exact start
  | move hrun hmove ih => exact move hrun (hrun.move hmove) ih (effect_of_step? hmove)

/-- The machine of a run takes a run of its own. -/
theorem Runs.machine (h : Runs now past d) : Machine.Runs (.start now) past d.machine := by
  induction h using Runs.induct with
  | start => exact .refl
  | move _ _ ih heffect =>
    cases heffect with
    | kept hmachine => rwa [List.append_nil, hmachine]
    | stepped s hbefore hstep => exact .step (hbefore ▸ ih) hstep
    | raised s _ _ _ _ _ _ hbefore hstep => exact .step (hbefore ▸ ih) hstep
    | received s _ _ _ _ hbefore hstep => exact .step (hbefore ▸ ih) hstep

/-- The steps of the machine that moves take, one after the other. -/
def trace (d : Delivery K V) : List (Move K V) → List (Step K V)
  | [] => []
  | move :: rest => d.taken move ++ trace (d.step move) rest

/-- Whether moves can all be made, one after the other. -/
def allows (d : Delivery K V) : List (Move K V) → Bool
  | [] => true
  | move :: rest => (d.step? move).isSome && allows (d.step move) rest

/-- Moves that can all be made lead a run on. -/
theorem Runs.trace {moves : List (Move K V)} (h : Runs now past d) (hall : d.allows moves = true) :
    Runs now (past ++ d.trace moves) (moves.foldl step d) := by
  induction moves generalizing past d with
  | nil =>
    rw [Delivery.trace, List.append_nil]
    exact h
  | cons move rest ih =>
    simp only [allows, Bool.and_eq_true] at hall
    obtain ⟨d', hmove⟩ := Option.isSome_iff_exists.mp hall.1
    have hstep : d.step move = d' := by rw [step, hmove, Option.getD_some]
    have hrest := ih (h.move hmove) (hstep ▸ hall.2)
    rw [Delivery.trace, List.foldl_cons, hstep, ← List.append_assoc]
    exact hrest

/-- Every run of the machine is that of one with errors: whatever fails raises an error that is made
for it. -/
theorem exists_runs_of_machine {m : Machine K V} (h : Machine.Runs (.start now) past m) :
    ∃ d, Runs now past d ∧ d.machine = m := by
  induction h with
  | refl => exact ⟨_, .start, rfl⟩
  | @step past s m _ hstep ih =>
    obtain ⟨m₀, a⟩ := s
    obtain ⟨d, hrun, rfl⟩ := ih
    have hact : ∀ {d' : Delivery K V}, d.step? (.act a) = some d' → d'.machine = m →
        ∃ d', Runs now (past ++ [⟨d.machine, a⟩]) d' ∧ d'.machine = m :=
      fun hd hmachine => ⟨_, hrun.move hd, hmachine⟩
    unfold Step.LeadsTo at hstep
    have hmap : ((d.machine.step? a).map fun machine => { d with machine }) =
        some { d with machine := m } := by rw [hstep, Option.map_some]
    cases a with
    | finish id result =>
      cases result with
      | ok r => exact hact hmap rfl
      | error e =>
        -- The error is made first, which the machine does not notice.
        have hmake : d.step? (.make e) = some { d with errors := d.errors ++ [⟨e, none⟩] } := rfl
        obtain ⟨k, f, g, -, parent, hcall⟩ := Step.LeadsTo.lands (s := ⟨d.machine, _⟩) hstep rfl
        have hnew : (d.errors ++ [⟨e, none⟩])[d.errors.length]? = some ⟨e, none⟩ :=
          List.getElem?_concat_length
        have hraise : Delivery.step? { d with errors := d.errors ++ [⟨e, none⟩] }
            (.raise id d.errors.length) = some ⟨m, d.errors ++ [⟨e, none⟩],
              (f, d.errors.length) :: d.raised, (id, d.errors.length) :: d.ended⟩ := by
          simp only [step?, hnew, hcall, hstep, Option.map_some]
        have htaken : taken { d with errors := d.errors ++ [⟨e, none⟩] }
            (.raise id d.errors.length) = [⟨d.machine, .finish id (.error e)⟩] := by
          simp [taken, action?]
        have hboth := (hrun.move hmake).move hraise
        rw [htaken] at hboth
        have hnone : d.taken (.make e) = [] := rfl
        rw [hnone, List.append_nil] at hboth
        exact ⟨_, hboth, rfl⟩
    | receive id =>
      have hcall : ∃ k parent f, d.machine.calls[id]? = some ⟨k, parent, .joined f⟩ := by
        simp only [Machine.step?] at hstep
        split at hstep
        · rename_i k parent f hcall
          exact ⟨k, parent, f, hcall⟩
        · contradiction
      obtain ⟨k, parent, f, hcall⟩ := hcall
      have hreceive : d.step? (.act (.receive id)) = some (d.receive id f m) := by
        simp only [step?, hcall, hstep, Option.map_some]
      exact hact hreceive (machine_receive id f m)
    | call parent k => exact hact hmap rfl
    | check id => exact hact hmap rfl
    | look id => exact hact hmap rfl
    | clear => exact hact hmap rfl
    | setClock t => exact hact hmap rfl

/-- What was raised is an error that there is. -/
theorem Runs.raised_lt (h : Runs now past d) (hmem : (f, o) ∈ d.raised) : o < d.errors.length := by
  induction h using Runs.induct with
  | start => exact absurd hmem List.not_mem_nil
  | move _ _ ih heffect =>
    cases heffect with
    | kept _ hraised _ herrors => exact Nat.lt_of_lt_of_le (ih (hraised ▸ hmem)) herrors.length_le
    | stepped s _ _ hraised _ herrors =>
      rw [herrors]
      exact ih (hraised ▸ hmem)
    | raised s id k f' g o' r _ _ _ ho hraised _ herrors =>
      rw [herrors]
      rcases List.mem_cons.mp (hraised ▸ hmem) with heq | hmem
      · obtain ⟨-, rfl⟩ := Prod.mk.inj heq
        exact (List.getElem?_eq_some_iff.mp ho).1
      · exact ih hmem
    | received s id k f' o' _ _ _ _ _ hraised _ herrors =>
      rw [herrors]
      exact Nat.lt_of_lt_of_le (ih (hraised ▸ hmem)) (lasting_handOut _ o').length_le

/-- What a call ended with is an error that there is. -/
theorem Runs.ended_lt (h : Runs now past d) (hmem : (id, c) ∈ d.ended) : c < d.errors.length := by
  induction h using Runs.induct with
  | start => exact absurd hmem List.not_mem_nil
  | move hrun _ ih heffect =>
    cases heffect with
    | kept _ _ hended herrors => exact Nat.lt_of_lt_of_le (ih (hended ▸ hmem)) herrors.length_le
    | stepped s _ _ _ hended herrors =>
      rw [herrors]
      exact ih (hended ▸ hmem)
    | raised s id' k f g o r _ _ _ ho _ hended herrors =>
      rw [herrors]
      rcases List.mem_cons.mp (hended ▸ hmem) with heq | hmem
      · obtain ⟨-, rfl⟩ := Prod.mk.inj heq
        exact (List.getElem?_eq_some_iff.mp ho).1
      · exact ih hmem
    | received s id' k f o _ _ _ _ ho _ hended herrors =>
      rw [herrors]
      rcases List.mem_cons.mp (hended ▸ hmem) with heq | hmem
      · obtain ⟨-, rfl⟩ := Prod.mk.inj heq
        exact handOut_lt (hrun.raised_lt (Cache.mem_of_lookup ho))
      · exact Nat.lt_of_lt_of_le (ih hmem) (lasting_handOut _ o).length_le

/-- A call that ended with an error has its answer. -/
theorem Runs.answered_of_ended (h : Runs now past d) (hmem : (id, c) ∈ d.ended) :
    ∃ k a, d.machine.Stands id k (.answered a) := by
  -- A call ends with an error when it has its answer, and a call that has its answer keeps it.
  induction h using Runs.induct with
  | start => exact absurd hmem List.not_mem_nil
  | @move past d d' steps _ _ ih heffect =>
    have hold : ∀ {s : Step K V}, s.before = d.machine → s.LeadsTo d'.machine →
        (id, c) ∈ d.ended → ∃ k a, d'.machine.Stands id k (.answered a) := by
      intro s hbefore hstep hmem
      obtain ⟨k, a, ha⟩ := ih hmem
      exact ⟨k, a, hstep.stays_answered (hbefore ▸ ha)⟩
    cases heffect with
    | kept hmachine _ hended =>
      rw [hmachine]
      exact ih (hended ▸ hmem)
    | stepped s hbefore hstep _ hended => exact hold hbefore hstep (hended ▸ hmem)
    | raised s id' k f g o r hbefore hstep hlands _ _ hended =>
      rcases List.mem_cons.mp (hended ▸ hmem) with heq | hmem
      · obtain ⟨rfl, -⟩ := Prod.mk.inj heq
        exact ⟨k, _, hlands.stands hstep⟩
      · exact hold hbefore hstep hmem
    | received s id' k f o hbefore hstep haction hstands _ _ hended =>
      rcases List.mem_cons.mp (hended ▸ hmem) with heq | hmem
      · obtain ⟨rfl, -⟩ := Prod.mk.inj heq
        obtain ⟨l, -, ha⟩ := hstep.answers haction hstands
        exact ⟨k, _, ha⟩
      · exact hold hbefore hstep hmem

/-! ## Who ends with which error -/

/-- The error that the call which computed ended with is the one that its computation raised. -/
theorem Runs.raised_of_landed (h : Runs now past d) (hl : Landed past owner k f g (.error e)) :
    ∃ o r, d.raised.lookup f = some o ∧ d.error? owner = some o ∧ d.errors[o]? = some r ∧
      r.failure.unsourced = e.unsourced := by
  -- What is raised and ended is only ever added to: it is left to show that nothing goes in front
  -- of what a flight and its owner have.
  induction h using Runs.induct with
  | start => exact absurd hl not_happened_nil
  | @move past d d' steps hrun _ ih heffect =>
    have hmachine := hrun.machine
    cases heffect with
    | kept _ hraised hended herrors =>
      rw [List.append_nil] at hl
      obtain ⟨o, r, hf, howner, ho, hr⟩ := ih hl
      obtain ⟨r', ho', -, hr'⟩ := herrors o r ho
      exact ⟨o, r', hraised ▸ hf, by rw [error?, hended]; exact howner, ho', hr'.trans hr⟩
    | stepped s _ _ hraised hended herrors hlands =>
      rcases happened_snoc.mp hl with hl | hl
      · obtain ⟨o, r, hf, howner, ho, hr⟩ := ih hl
        exact ⟨o, r, hraised ▸ hf, by rw [error?, hended]; exact howner, herrors ▸ ho, hr⟩
      · exact absurd hl (hlands owner k f g e)
    | raised s id j f' g' o r hbefore _ hlands ho hraised hended herrors =>
      rw [error?, hraised, hended, herrors, Cache.lookup_cons_ite, Cache.lookup_cons_ite]
      rcases happened_snoc.mp hl with hl | hl
      · -- The call that fails now computed up to now, and so is no old one, nor is its flight.
        have hcomputing : d.machine.Stands id j (.computing f' g') := hbefore ▸ hlands.2
        have hf : f ≠ f' := by
          rintro rfl
          exact hmachine.not_landed_of_computing hcomputing hl
        have howner : owner ≠ id := by
          rintro rfl
          obtain ⟨a, ha⟩ := hmachine.exists_answer_of_landed hl
          have hphase := (ha.unique hcomputing).2
          contradiction
        rw [if_neg hf, if_neg howner]
        exact ih hl
      · obtain ⟨rfl, -, rfl, -, hresult⟩ := hl.unique hlands
        injection hresult with hresult
        rw [if_pos rfl, if_pos rfl]
        exact ⟨o, r, rfl, rfl, ho, by rw [hresult]⟩
    | received s id j f' o' hbefore _ haction hstands _ hraised hended herrors =>
      rcases happened_snoc.mp hl with hl | hl
      · have howner : owner ≠ id := by
          rintro rfl
          obtain ⟨a, ha⟩ := hmachine.exists_answer_of_landed hl
          have hphase := (ha.unique (hbefore ▸ hstands)).2
          contradiction
        obtain ⟨o, r, hf, howner', ho, hr⟩ := ih hl
        obtain ⟨r', ho', -, hr'⟩ := lasting_handOut d.errors o' o r ho
        refine ⟨o, r', hraised ▸ hf, ?_, herrors ▸ ho', hr'.trans hr⟩
        rw [error?, hended, Cache.lookup_cons_ite, if_neg howner]
        exact howner'
      · rw [hl.1] at haction
        contradiction

/-- The error that a call which joined ended with is the one handed out to it. -/
theorem Runs.handedOut_of_joins (h : Runs now past d) (hj : Looked past id k (.joined f))
    (hl : Landed past owner i f g (.error e)) (ha : d.machine.Stands id k (.answered a)) :
    ∃ o c, d.raised.lookup f = some o ∧ d.error? id = some c ∧ HandedOut d.errors o e c := by
  induction h using Runs.induct generalizing a with
  | start => exact absurd hl not_happened_nil
  | @move past d d' steps hrun hrun' ih heffect =>
    have hmachine := hrun.machine
    -- A call that has just looked has no answer yet.
    have hlooked : ∀ {s : Step K V}, s.LeadsTo d'.machine → Looked (past ++ [s]) id k (.joined f) →
        Looked past id k (.joined f) := by
      intro s hstep hj
      rcases happened_snoc.mp hj with hj | hj
      · exact hj
      · have hphase := (ha.unique (hj.stands hstep)).2
        contradiction
    cases heffect with
    | kept hsame hraised hended herrors =>
      rw [List.append_nil] at hj hl
      obtain ⟨o, c, hf, hc, hout⟩ := ih hj hl (hsame ▸ ha)
      exact ⟨o, c, hraised ▸ hf, by rw [error?, hended]; exact hc, hout.lasting herrors⟩
    | stepped s hbefore hstep hraised hended herrors hlands hreceives =>
      have hj := hlooked hstep hj
      have hl : Landed past owner i f g (.error e) := by
        rcases happened_snoc.mp hl with hl | hl
        · exact hl
        · exact absurd hl (hlands owner i f g e)
      rw [error?, hraised, hended, herrors]
      rcases hmachine.stands_of_joins hj with hjoined | ⟨l, -, hanswered⟩
      · -- It gets its answer now, without an error being handed out: but the flight raised one.
        have haction := hstep.receives (hbefore ▸ hjoined) ha
        have hnone := hreceives id k f haction (hbefore ▸ hjoined)
        obtain ⟨o, r, hf, -⟩ := hrun.raised_of_landed hl
        rw [hnone] at hf
        contradiction
      · exact ih hj hl hanswered
    | raised s id' j f' g' o' r hbefore hstep hlands ho hraised hended herrors =>
      have hj := hlooked hstep hj
      have hcomputing : d.machine.Stands id' j (.computing f' g') := hbefore ▸ hlands.2
      rcases hmachine.stands_of_joins hj with hjoined | ⟨l, -, hanswered⟩
      · have haction := hstep.receives (hbefore ▸ hjoined) ha
        rw [hlands.1] at haction
        contradiction
      · -- Both the call and its flight are others than those that fail now.
        have hid : id ≠ id' := by
          rintro rfl
          have hphase := (hanswered.unique hcomputing).2
          contradiction
        obtain ⟨owner', g'', n, result, hl', -⟩ := hmachine.landed_of_joins hj hanswered
        have hf : f ≠ f' := by
          rintro rfl
          exact hmachine.not_landed_of_computing hcomputing hl'
        have hl : Landed past owner i f g (.error e) := by
          rcases happened_snoc.mp hl with hl | hl
          · exact hl
          · exact absurd (hl.unique hlands).2.2.1 hf
        rw [error?, hraised, hended, herrors, Cache.lookup_cons_ite, Cache.lookup_cons_ite,
          if_neg hid, if_neg hf]
        exact ih hj hl hanswered
    | received s id' j f' o' hbefore hstep haction hstands ho' hraised hended herrors =>
      have hj := hlooked hstep hj
      have hl : Landed past owner i f g (.error e) := by
        rcases happened_snoc.mp hl with hl | hl
        · exact hl
        · rw [hl.1] at haction
          contradiction
      rw [error?, hraised, hended, herrors, Cache.lookup_cons_ite]
      rcases hmachine.stands_of_joins hj with hjoined | ⟨l, -, hanswered⟩
      · have hreceive := hstep.receives (hbefore ▸ hjoined) ha
        rw [haction] at hreceive
        injection hreceive with hid
        subst hid
        obtain ⟨rfl, hphase⟩ := hjoined.unique (hbefore ▸ hstands)
        injection hphase with hf
        subst hf
        obtain ⟨o, r, hf, -, ho, hr⟩ := hrun.raised_of_landed hl
        rw [hf] at ho'
        injection ho' with ho'
        subst ho'
        rw [if_pos rfl]
        exact ⟨o, _, hf, rfl, handedOut_handOut ho hr⟩
      · have hid : id ≠ id' := by
          rintro rfl
          have hphase := (hanswered.unique (hbefore ▸ hstands)).2
          contradiction
        rw [if_neg hid]
        obtain ⟨o, c, hf, hc, hout⟩ := ih hj hl hanswered
        exact ⟨o, c, hf, hc, hout.lasting (lasting_handOut d.errors o')⟩

/-- An error that two calls which joined ended with is one that cannot be copied. -/
theorem Runs.not_isRepeatable_of_ended (h : Runs now past d) (hj : Looked past id k (.joined f))
    (hj' : Looked past id' k' (.joined f')) (hc : (id, c) ∈ d.ended) (hc' : (id', c) ∈ d.ended)
    (hne : id ≠ id') :
    ∃ r : ErrorObject, d.errors[c]? = some r ∧ r.failure.isRepeatable = false := by
  induction h using Runs.induct generalizing id id' k k' f f' c with
  | start => exact absurd hc List.not_mem_nil
  | @move past d d' steps hrun hrun' ih heffect =>
    have hmachine := hrun.machine
    -- Whoever has ended with an error had looked before.
    have hlooked : ∀ {s : Step K V} {j i x y}, s.before = d.machine →
        Looked (past ++ [s]) j i (.joined x) → (j, y) ∈ d.ended → Looked past j i (.joined x) := by
      intro s j i x y hbefore hj hmem
      rcases happened_snoc.mp hj with hj | hj
      · exact hj
      · obtain ⟨_, _, ha⟩ := hrun.answered_of_ended hmem
        have hphase := (ha.unique (hbefore ▸ hj.2.1)).2
        contradiction
    have hlast : ∀ {errors}, Lasting d.errors errors →
        (∃ r : ErrorObject, d.errors[c]? = some r ∧ r.failure.isRepeatable = false) →
        ∃ r : ErrorObject, errors[c]? = some r ∧ r.failure.isRepeatable = false := by
      rintro errors hlast ⟨r, hr, hrepeat⟩
      obtain ⟨r', hr', -, hsame⟩ := hlast c r hr
      exact ⟨r', hr', (isRepeatable_of_unsourced_eq hsame).trans hrepeat⟩
    cases heffect with
    | kept _ _ hended herrors =>
      rw [List.append_nil] at hj hj'
      rw [hended] at hc hc'
      exact hlast herrors (ih hj hj' hc hc' hne)
    | stepped s hbefore _ _ hended herrors =>
      rw [hended] at hc hc'
      rw [herrors]
      exact ih (hlooked hbefore hj hc) (hlooked hbefore hj' hc') hc hc' hne
    | raised s owner i x g o r hbefore _ hlands _ _ hended herrors =>
      -- The call that fails computed, so that it has not joined.
      have hother : ∀ {j i' x' y}, Looked (past ++ [s]) j i' (.joined x') → (j, y) ∈ d'.ended →
          (j, y) ∈ d.ended := by
        intro j i' x' y hj hmem
        rw [hended] at hmem
        rcases List.mem_cons.mp hmem with heq | hmem
        · obtain ⟨rfl, -⟩ := Prod.mk.inj heq
          have hr := hmachine.registered_of_computing (hbefore ▸ hlands.2)
          have hfound := (hrun'.machine.looked_unique hj (happened_append.mpr (.inl hr))).2
          contradiction
        · exact hmem
      have hc := hother hj hc
      have hc' := hother hj' hc'
      rw [herrors]
      exact ih (hlooked hbefore hj hc) (hlooked hbefore hj' hc') hc hc' hne
    | received s got i x o hbefore _ _ _ ho _ hended herrors =>
      -- A new error is nobody's yet; what else is handed out is one that cannot be copied.
      have hnew : ∀ {j}, (j, (handOut d.errors o).1) ∈ d.ended → c = (handOut d.errors o).1 →
          ∃ r : ErrorObject, d'.errors[c]? = some r ∧ r.failure.isRepeatable = false := by
        rintro j hmem rfl
        have hlt := hrun.ended_lt hmem
        obtain ⟨r, hr⟩ : ∃ r, d.errors[o]? = some r :=
          ⟨_, List.getElem?_eq_getElem (hrun.raised_lt (Cache.mem_of_lookup ho))⟩
        cases hrepeat : r.failure.isRepeatable with
        | true =>
          rw [handOut_of_isRepeatable hr hrepeat] at hlt
          exact absurd hlt (Nat.lt_irrefl _)
        | false =>
          rw [herrors, handOut_of_not_isRepeatable hr hrepeat]
          exact ⟨r, hr, hrepeat⟩
      rw [hended] at hc hc'
      rcases List.mem_cons.mp hc with heq | hc <;> rcases List.mem_cons.mp hc' with heq' | hc'
      · obtain ⟨rfl, -⟩ := Prod.mk.inj heq
        obtain ⟨rfl, -⟩ := Prod.mk.inj heq'
        exact absurd rfl hne
      · obtain ⟨-, hceq⟩ := Prod.mk.inj heq
        exact hnew (hceq ▸ hc') hceq
      · obtain ⟨-, hceq⟩ := Prod.mk.inj heq'
        exact hnew (hceq ▸ hc) hceq
      · rw [herrors]
        exact hlast (lasting_handOut d.errors o)
          (ih (hlooked hbefore hj hc) (hlooked hbefore hj' hc') hc hc' hne)

/-! ## One outcome -/

/-- A call that joined can get what its flight landed with. -/
theorem step?_receive {l : Landing V} (hs : d.machine.Stands id k (.joined f))
    (hl : d.machine.landed.lookup f = some l) :
    d.step? (.act (.receive id)) =
      some (d.receive id f (d.machine.setPhase id (.answered l.toJoined))) := by
  obtain ⟨parent, hcall⟩ := hs
  simp only [step?, Machine.step?, hcall, hl, Option.map_some]

/-- The calls that joined a flight end as the call that computed it. None is answered before the
flight has landed, and then each can be. What the computation returned they all return. What it
raised goes to the call that computed, and each of the others gets a new error with its failure as
it is by then and with it as the cause, which no other call that joined has; only if its class
cannot make it anew they get it itself. -/
theorem Runs.outcome_shared (h : Runs now past d) :
    (∀ id k f a, Looked past id k (.joined f) → d.machine.answer? id = some a →
      ∃ owner g result, Landed past owner k f g result) ∧
    (∀ owner k f g result, Landed past owner k f g result → ∃ n,
      d.machine.answer? owner = some (landing n result).toOwner ∧
      ∀ id i, Looked past id i (.joined f) → i = k ∧
        (d.machine.answer? id = some (landing n result).toJoined ∨
          d.machine.Stands id k (.joined f) ∧ ∃ d', d.step? (.act (.receive id)) = some d' ∧
            d'.machine.answer? id = some (landing n result).toJoined)) ∧
    (∀ n r, (landing n (.ok r) : Landing V).toOwner = .returned r ∧
      (landing n (.ok r) : Landing V).toJoined = .returned r) ∧
    (∀ owner k f g e, Landed past owner k f g (.error e) → ∃ o r,
      d.error? owner = some o ∧ d.errors[o]? = some r ∧ r.failure.unsourced = e.unsourced ∧
      ∀ id i, Looked past id i (.joined f) →
        (∃ c, d.error? id = some c ∧
          (e.isRepeatable = true → c ≠ o ∧
            (∃ r' : ErrorObject, d.errors[c]? = some r' ∧ r'.cause = some o ∧
              r'.failure.unsourced = e.unsourced) ∧
            ∀ id' j f', id' ≠ id → Looked past id' j (.joined f') → d.error? id' ≠ some c) ∧
          (e.isRepeatable = false → c = o)) ∨
        d.machine.Stands id k (.joined f) ∧ ∃ d', d.step? (.act (.receive id)) = some d' ∧
          (e.isRepeatable = true → d'.error? id = some d.errors.length ∧
            d'.errors = d.errors ++ [⟨r.failure, some o⟩]) ∧
          (e.isRepeatable = false → d'.error? id = some o ∧ d'.errors = d.errors)) ∧
    ∀ e : Failure, e.remade? = if e.isRepeatable then some e else none := by
  have hmachine := h.machine
  refine ⟨?_, ?_, ?_, ?_, Failure.remade?_eq⟩
  · intro id k f a hj ha
    obtain ⟨i, hs⟩ := Machine.stands_of_answer ha
    obtain ⟨owner, g, n, result, hl, -⟩ := hmachine.landed_of_joins hj hs
    exact ⟨owner, g, result, hl⟩
  · intro owner k f g result hl
    obtain ⟨n, hlookup, hanswered⟩ := hmachine.answered_of_landed hl
    refine ⟨n, Machine.answer_of_stands hanswered, ?_⟩
    intro id i hj
    obtain ⟨owner', g', hr⟩ := hmachine.registered_of_joins hj
    obtain ⟨rfl, rfl, rfl⟩ := hmachine.registered_unique hr (hmachine.registered_of_landed hl)
    refine ⟨rfl, ?_⟩
    rcases hmachine.stands_of_joins hj with hjoined | ⟨l, hlookup', hs⟩
    · refine .inr ⟨hjoined, _, step?_receive hjoined hlookup, ?_⟩
      rw [machine_receive]
      exact Machine.answer_of_stands (hjoined.setPhase _)
    · rw [hlookup] at hlookup'
      injection hlookup' with heq
      rw [heq]
      exact .inl (Machine.answer_of_stands hs)
  · intro n r
    exact ⟨Machine.toOwner_eq_returned.mpr rfl, Machine.toJoined_eq_returned.mpr rfl⟩
  · intro owner k f g e hl
    obtain ⟨o, r, hf, howner, ho, hr⟩ := h.raised_of_landed hl
    refine ⟨o, r, howner, ho, hr, ?_⟩
    intro id i hj
    obtain ⟨owner', g', hreg⟩ := hmachine.registered_of_joins hj
    obtain ⟨-, rfl, -⟩ := hmachine.registered_unique hreg (hmachine.registered_of_landed hl)
    rcases hmachine.stands_of_joins hj with hjoined | ⟨l, -, hs⟩
    · obtain ⟨n, hlookup, -⟩ := hmachine.answered_of_landed hl
      obtain ⟨herror, herrors⟩ := receive_of_raised id
        (d.machine.setPhase id (.answered (landing n (.error e)).toJoined)) hf
      have hsame := isRepeatable_of_unsourced_eq hr
      refine .inr ⟨hjoined, _, step?_receive hjoined hlookup, fun he => ?_, fun he => ?_⟩
      · rw [herror, herrors, handOut_of_isRepeatable ho (hsame.trans he)]
        exact ⟨rfl, rfl⟩
      · rw [herror, herrors, handOut_of_not_isRepeatable ho (hsame.trans he)]
        exact ⟨rfl, rfl⟩
    · obtain ⟨o', c, hf', hc, hout⟩ := h.handedOut_of_joins hj hl hs
      rw [hf] at hf'
      injection hf' with hf'
      subst hf'
      refine .inl ⟨c, hc, fun he => ?_, hout.2⟩
      obtain ⟨hne, r', hc', hcause, hr'⟩ := hout.1 he
      refine ⟨hne, ⟨r', hc', hcause, hr'⟩, ?_⟩
      -- Whatever two calls that joined share cannot be copied, and this one can.
      intro id' j f' hid hj' hshared
      obtain ⟨r'', hc'', hrepeat⟩ := h.not_isRepeatable_of_ended hj' hj
        (Cache.mem_of_lookup hshared) (Cache.mem_of_lookup hc) hid
      rw [hc'] at hc''
      injection hc'' with hc''
      rw [← hc'', isRepeatable_of_unsourced_eq hr', he] at hrepeat
      contradiction

end Delivery

namespace SharedFailure

/-- What the file of a name holds cannot be used. -/
def unusable : Failure := .host ⟨.malformed "k.yml", "bad"⟩

/-- A call computes and two others join it; the cache is cleared; the computation raises an error
after its source was put right. One of the others gets its error before the source is changed again,
and the other one after that. -/
def moves : List (Move String Nat) := [
  .act (.call none "k"), .act (.check 0), .act (.look 0), .act (.call none "k"), .act (.check 1),
  .act (.look 1), .act (.call none "k"), .act (.check 2), .act (.look 2), .act .clear,
  .make unusable, .mark 0 "/c/k.yml", .raise 0 0, .act (.receive 1), .mark 0 "/d/k.yml",
  .act (.receive 2)]

/-- The steps of the machine. -/
def past : List (Machine.Step String Nat) := (Delivery.start (.inMay 0 12 0)).trace moves

/-- What the moves lead to. -/
def final : Delivery String Nat := moves.foldl Delivery.step (.start (.inMay 0 12 0))

/-- Each of the two that joined has an error of its own, with the source that the first one had when
it was made, and with the first one as its cause. -/
theorem copies_with_sources :
    final.error? 0 = some 0 ∧ final.error? 1 = some 1 ∧ final.error? 2 = some 2 ∧
      final.errors.map (·.failure.parts.source) =
        [some "/d/k.yml", some "/c/k.yml", some "/d/k.yml"] ∧
      ∃ c, final.error? 1 = some c ∧ c ≠ 0 ∧ final.error? 2 ≠ some c ∧
        ∃ r : ErrorObject, final.errors[c]? = some r ∧ r.cause = some 0 := by
  have hall : (Delivery.start (.inMay 0 12 0)).allows moves = true := rfl
  have hrun : Delivery.Runs (.inMay 0 12 0) past final := Delivery.Runs.start.trace hall
  have hlanded : Machine.Landed past 0 "k" 0 1 (.error (unusable.withSource "/c/k.yml")) :=
    ⟨past[10], List.getElem_mem _, rfl, none, rfl⟩
  have hfirst : Machine.Looked past 1 "k" (.joined 0) :=
    ⟨past[5], List.getElem_mem _, rfl, ⟨none, rfl⟩, rfl⟩
  have hsecond : Machine.Looked past 2 "k" (.joined 0) :=
    ⟨past[8], List.getElem_mem _, rfl, ⟨none, rfl⟩, rfl⟩
  obtain ⟨o, r, howner, -, -, hcalls⟩ := hrun.outcome_shared.2.2.2.1 0 "k" 0 1 _ hlanded
  obtain rfl : 0 = o := Option.some.inj howner
  refine ⟨rfl, rfl, rfl, rfl, ?_⟩
  have hanswered : final.machine.Stands 1 "k"
      (.answered (.copied (unusable.withSource "/c/k.yml") 0)) := ⟨none, rfl⟩
  rcases hcalls 1 "k" hfirst with ⟨c, hc, hcopy, -⟩ | ⟨hjoined, -⟩
  · obtain ⟨hne, ⟨r', hc', hcause, -⟩, hother⟩ := hcopy rfl
    exact ⟨c, hc, hne, hother 2 "k" 0 (by decide) hsecond, r', hc', hcause⟩
  · cases (hjoined.unique hanswered).2

end SharedFailure
end Stratum
