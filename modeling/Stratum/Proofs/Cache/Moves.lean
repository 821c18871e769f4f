import Stratum.Cache.Errors
import Stratum.Proofs.Cache.Generations

/-!
# What moves do to errors

An error that is made anew is the same in class, text and source, or its class refuses to make it
anew. Errors last: whatever is done, each keeps its class, its text and its cause. A move does one
of four things: it leaves the machine alone, takes a step of it that concerns no error, fails a
computation, or hands an error out to a call that joined.
-/

namespace Stratum

/-! ## Errors made anew -/

namespace Failure

/-- An error that keeps its parts stays as it is. -/
theorem withParts_parts (e : Failure) : e.withParts e.parts = e := by
  cases e with
  | host e =>
    obtain ⟨kind, text⟩ := e
    cases kind <;> rfl
  | _ => rfl

/-- A class takes what its errors come down to and makes the same of it, if they can be copied. -/
theorem make?_reduced (e : Failure) :
    e.maker.make? e.parts.reduced = if e.isRepeatable then some e.parts else none := by
  cases e with
  | host e =>
    obtain ⟨kind, text⟩ := e
    cases kind <;> rfl
  | _ => rfl

/-- An error that can be copied is made anew as it is: its class, its text and its source. -/
theorem remade?_eq (e : Failure) : e.remade? = if e.isRepeatable then some e else none := by
  unfold remade?
  rw [make?_reduced]
  split
  · rw [Option.map_some, withParts_parts]
  · rfl

/-- The failure but for its source, which is its class and its text. -/
def unsourced (e : Failure) : Failure := e.withSource ""

/-- Another source changes nothing else. -/
theorem unsourced_withSource (source : String) (e : Failure) :
    (e.withSource source).unsourced = e.unsourced := by
  cases e with
  | host e =>
    obtain ⟨kind, text⟩ := e
    cases kind <;> rfl
  | _ => rfl

/-- Whether an error can be copied does not depend on its source. -/
theorem isRepeatable_unsourced (e : Failure) : e.unsourced.isRepeatable = e.isRepeatable := by
  cases e with
  | host e =>
    obtain ⟨kind, text⟩ := e
    cases kind <;> rfl
  | _ => rfl

end Failure

namespace Delivery

open Machine (Step Landed Looked landing happened_append happened_snoc not_happened_nil)

variable {K V : Type}

/-- Errors that are there stay there, with their causes, their classes and their texts. -/
def Lasting (errors errors' : List ErrorObject) : Prop :=
  ∀ (o : Nat) (r : ErrorObject), errors[o]? = some r → ∃ r' : ErrorObject,
    errors'[o]? = some r' ∧ r'.cause = r.cause ∧ r'.failure.unsourced = r.failure.unsourced

/-- Errors that are left alone last. -/
theorem Lasting.refl (errors : List ErrorObject) : Lasting errors errors :=
  fun _ r h => ⟨r, h, rfl, rfl⟩

/-- One more error leaves those that are there. -/
theorem Lasting.append (errors : List ErrorObject) (r : ErrorObject) :
    Lasting errors (errors ++ [r]) := by
  intro o r' h
  have hlt : o < errors.length := (List.getElem?_eq_some_iff.mp h).1
  exact ⟨r', by rw [List.getElem?_append_left hlt, h], rfl, rfl⟩

/-- Another source leaves class, text and cause. -/
theorem Lasting.mark (errors : List ErrorObject) (o : Nat) (source : String) :
    Lasting errors
      (errors.modify o fun r => { r with failure := r.failure.withSource source }) := by
  intro o' r h
  rw [List.getElem?_modify, h, Option.map_eq_map, Option.map_some]
  by_cases ho : o = o'
  · refine ⟨{ r with failure := r.failure.withSource source }, by rw [if_pos ho], rfl, ?_⟩
    exact Failure.unsourced_withSource source r.failure
  · exact ⟨r, by rw [if_neg ho], rfl, rfl⟩

/-- No error is dropped. -/
theorem Lasting.length_le {errors errors' : List ErrorObject} (h : Lasting errors errors') :
    errors.length ≤ errors'.length := by
  by_contra hlt
  have hlast : errors'.length < errors.length := Nat.lt_of_not_le hlt
  obtain ⟨r', hr', -⟩ := h errors'.length _ (List.getElem?_eq_getElem hlast)
  have := (List.getElem?_eq_some_iff.mp hr').1
  omega

/-! ## Handing an error out -/

/-- An error that can be copied is handed out as a new one with the same failure, caused by it. -/
theorem handOut_of_isRepeatable {errors : List ErrorObject} {o : Nat} {r : ErrorObject}
    (ho : errors[o]? = some r) (h : r.failure.isRepeatable = true) :
    handOut errors o = (errors.length, errors ++ [⟨r.failure, some o⟩]) := by
  unfold handOut
  rw [ho, Option.bind_some, Failure.remade?_eq, if_pos h]

/-- An error that cannot be copied is handed out itself. -/
theorem handOut_of_not_isRepeatable {errors : List ErrorObject} {o : Nat} {r : ErrorObject}
    (ho : errors[o]? = some r) (h : r.failure.isRepeatable = false) :
    handOut errors o = (o, errors) := by
  unfold handOut
  rw [ho, Option.bind_some, Failure.remade?_eq, if_neg (by simp [h])]

/-- Handing out leaves the errors that are there. -/
theorem lasting_handOut (errors : List ErrorObject) (o : Nat) :
    Lasting errors (handOut errors o).2 := by
  unfold handOut
  split
  · exact .append errors _
  · exact .refl errors

/-- What is handed out is an error that there is. -/
theorem handOut_lt {errors : List ErrorObject} {o : Nat} (h : o < errors.length) :
    (handOut errors o).1 < (handOut errors o).2.length := by
  unfold handOut
  split
  · rw [List.length_append]
    exact Nat.lt_succ_self _
  · exact h

/-- An error is handed out for one that was raised: a new one with the class, the text and the cause
that it should have, or that one itself if it cannot be copied. -/
def HandedOut (errors : List ErrorObject) (o : Nat) (e : Failure) (c : Nat) : Prop :=
  (e.isRepeatable = true → c ≠ o ∧ ∃ r : ErrorObject, errors[c]? = some r ∧ r.cause = some o ∧
    r.failure.unsourced = e.unsourced) ∧ (e.isRepeatable = false → c = o)

/-- What was handed out lasts. -/
theorem HandedOut.lasting {errors errors' : List ErrorObject} {o c : Nat} {e : Failure}
    (h : HandedOut errors o e c) (hlast : Lasting errors errors') : HandedOut errors' o e c := by
  refine ⟨fun he => ?_, h.2⟩
  obtain ⟨hne, r, hc, hcause, hr⟩ := h.1 he
  obtain ⟨r', hc', hcause', hr'⟩ := hlast c r hc
  exact ⟨hne, r', hc', hcause'.trans hcause, hr'.trans hr⟩

/-- Failures that differ in their sources alone can both be copied, or neither. -/
theorem isRepeatable_of_unsourced_eq {e e' : Failure} (h : e.unsourced = e'.unsourced) :
    e.isRepeatable = e'.isRepeatable := by
  rw [← e.isRepeatable_unsourced, h, e'.isRepeatable_unsourced]

/-- What is handed out for an error is as it should be. -/
theorem handedOut_handOut {errors : List ErrorObject} {o : Nat} {r : ErrorObject} {e : Failure}
    (ho : errors[o]? = some r) (hr : r.failure.unsourced = e.unsourced) :
    HandedOut (handOut errors o).2 o e (handOut errors o).1 := by
  have hsame := isRepeatable_of_unsourced_eq hr
  have hlt : o < errors.length := (List.getElem?_eq_some_iff.mp ho).1
  refine ⟨fun he => ?_, fun he => ?_⟩
  · rw [handOut_of_isRepeatable ho (hsame.trans he)]
    exact ⟨Nat.ne_of_gt hlt, _, List.getElem?_concat_length, rfl, hr⟩
  · rw [handOut_of_not_isRepeatable ho (hsame.trans he)]

variable {d d' : Delivery K V} {id f o : Nat}

/-- A call that gets what its flight landed with has the error that is handed out for the one that
the flight raised. -/
theorem receive_of_raised (id : Nat) (machine : Machine K V) (ho : d.raised.lookup f = some o) :
    (d.receive id f machine).error? id = some (handOut d.errors o).1 ∧
      (d.receive id f machine).errors = (handOut d.errors o).2 := by
  unfold receive
  rw [ho]
  exact ⟨List.lookup_cons_self, rfl⟩

/-- Getting what the flight landed with is the machine's step. -/
theorem machine_receive (id f : Nat) (machine : Machine K V) :
    (d.receive id f machine).machine = machine := by
  unfold receive
  split <;> rfl

/-! ## Moves -/

variable [DecidableEq K]

/-- The step of the machine that a move takes, if it takes one. -/
def taken (d : Delivery K V) (move : Move K V) : List (Step K V) :=
  (d.action? move).toList.map fun a => ⟨d.machine, a⟩

/-- What a move does to the machine, the errors, and who has which. -/
inductive Effect (d d' : Delivery K V) : List (Step K V) → Prop
  | kept (hmachine : d'.machine = d.machine) (hraised : d'.raised = d.raised)
      (hended : d'.ended = d.ended) (herrors : Lasting d.errors d'.errors) : Effect d d' []
  | stepped (s : Step K V) (hbefore : s.before = d.machine) (hstep : s.LeadsTo d'.machine)
      (hraised : d'.raised = d.raised) (hended : d'.ended = d.ended)
      (herrors : d'.errors = d.errors) (hlands : ∀ id k f g e, ¬s.Lands id k f g (.error e))
      (hreceives : ∀ id k f, s.action = .receive id → s.before.Stands id k (.joined f) →
        d.raised.lookup f = none) : Effect d d' [s]
  | raised (s : Step K V) (id : Nat) (k : K) (f g o : Nat) (r : ErrorObject)
      (hbefore : s.before = d.machine) (hstep : s.LeadsTo d'.machine)
      (hlands : s.Lands id k f g (.error r.failure)) (ho : d.errors[o]? = some r)
      (hraised : d'.raised = (f, o) :: d.raised) (hended : d'.ended = (id, o) :: d.ended)
      (herrors : d'.errors = d.errors) : Effect d d' [s]
  | received (s : Step K V) (id : Nat) (k : K) (f o : Nat)
      (hbefore : s.before = d.machine) (hstep : s.LeadsTo d'.machine)
      (haction : s.action = .receive id) (hstands : s.before.Stands id k (.joined f))
      (ho : d.raised.lookup f = some o) (hraised : d'.raised = d.raised)
      (hended : d'.ended = (id, (handOut d.errors o).1) :: d.ended)
      (herrors : d'.errors = (handOut d.errors o).2) : Effect d d' [s]

variable {move : Move K V}

/-- A step of the machine that neither fails a computation nor answers a call that joined. -/
theorem effect_of_map {a : Action K V}
    (h : ((d.machine.step? a).map fun machine => { d with machine }) = some d')
    (hfinish : ∀ id e, a ≠ .finish id (.error e)) (hreceive : ∀ id, a ≠ .receive id) :
    Effect d d' [⟨d.machine, a⟩] := by
  obtain ⟨machine, hstep, rfl⟩ := Option.map_eq_some_iff.mp h
  refine .stepped ⟨d.machine, a⟩ rfl hstep rfl rfl rfl ?_ ?_
  · rintro id k f g e ⟨haction, -⟩
    exact hfinish id e haction
  · intro id k f haction
    exact absurd haction (hreceive id)

/-- A move has one of the four effects. -/
theorem effect_of_step? (h : d.step? move = some d') : Effect d d' (d.taken move) := by
  unfold step? at h
  split at h
  · injection h with h
    subst h
    exact .kept rfl rfl rfl (.append d.errors _)
  · injection h with h
    subst h
    exact .kept rfl rfl rfl (.mark d.errors _ _)
  · rename_i id o
    split at h
    · rename_i r k parent f g ho hcall
      obtain ⟨machine, hstep, rfl⟩ := Option.map_eq_some_iff.mp h
      have htaken : d.taken (.raise id o) = [⟨d.machine, .finish id (.error r.failure)⟩] := by
        simp [taken, action?, ho]
      rw [htaken]
      exact .raised _ id k f g o r rfl hstep ⟨rfl, parent, hcall⟩ ho rfl rfl rfl
    · contradiction
  · contradiction
  · rename_i id
    split at h
    · rename_i k parent f hcall
      obtain ⟨machine, hstep, rfl⟩ := Option.map_eq_some_iff.mp h
      have hstands : d.machine.Stands id k (.joined f) := ⟨parent, hcall⟩
      -- A call that receives what landed takes an error of its own if one was raised in that
      -- flight.
      unfold receive
      split
      · rename_i hnone
        refine .stepped ⟨d.machine, .receive id⟩ rfl hstep rfl rfl rfl ?_ ?_
        · rintro id' k' f' g' e ⟨haction, -⟩
          contradiction
        · intro id' k' f' haction hstands'
          injection haction with hid
          subst hid
          have hphase := (hstands.unique hstands').2
          injection hphase with hf
          rw [← hf, hnone]
      · rename_i o ho
        exact .received ⟨d.machine, .receive id⟩ id k f o rfl hstep rfl hstands ho rfl rfl rfl
    · contradiction
  · rename_i a hfinish hreceive
    exact effect_of_map h hfinish hreceive

end Delivery
end Stratum
