import Stratum.Proofs.Cache.Moves
import Stratum.Proofs.Resolve.Reports

/-!
# What a cache tells and raises

A cache tells the logger two lines, which are printable. It raises the errors that computations end
with and copies of them, so that they are reported in printable words if those were
(`Delivery.Prints.run`).
-/

namespace Stratum

open Text (Printable printable_of_all)

/-- An error of the host is about the content of a file in printable words only. -/
def HostError.Printable (e : HostError) : Prop :=
  ∀ source, e.kind = .malformed source → Text.Printable e.text ∧ Text.Printable source

/-- A failure is reported in printable words with another printable source too. -/
theorem Failure.Printable.withSource {e : Failure} (h : e.Printable HostError.Printable)
    {source : String} (hsource : Text.Printable source) :
    (e.withSource source).Printable HostError.Printable := by
  cases e with
  | malformed m => exact ⟨h.1, hsource⟩
  | host e =>
    obtain ⟨kind, text⟩ := e
    cases kind with
    | malformed source' =>
      rintro _ ⟨⟩
      exact ⟨(h source' rfl).1, hsource⟩
    | _ => rintro _ ⟨⟩
  | _ => trivial

namespace Cache

/-- The line about a cache that is cleared is printable. -/
theorem printable_clearLine : Printable clearLine.message := printable_of_all (by decide)

/-- So is the line about a cache that was expired. -/
theorem printable_refreshLine : Printable refreshLine.message := printable_of_all (by decide)

end Cache

variable {K V : Type}

/-- What a move gives to a cache is printable: the error that it makes, or the source that it puts
into one. -/
def Move.Prints : Move K V → Prop
  | .make e => e.Printable HostError.Printable
  | .mark _ source => Printable source
  | .act _ | .raise _ _ => True

namespace Delivery

/-- All that was told is printable, and all errors are reported in printable words. -/
structure Prints (d : Delivery K V) : Prop where
  log : Printed [] d.machine.log
  errors : ∀ r ∈ d.errors, r.failure.Printable HostError.Printable

/-- What is handed out for an error is reported as that is. -/
theorem printable_handOut {errors : List ErrorObject}
    (h : ∀ r ∈ errors, r.failure.Printable HostError.Printable) (o : Nat) :
    ∀ r ∈ (handOut errors o).2, r.failure.Printable HostError.Printable := by
  unfold handOut
  split
  · rename_i e hremade
    obtain ⟨r, hr, hremade⟩ := Option.bind_eq_some_iff.mp hremade
    rw [Failure.remade?_eq] at hremade
    split at hremade
    · obtain rfl := Option.some.inj hremade
      exact List.forall_mem_append.mpr
        ⟨h, List.forall_mem_singleton.mpr (h r (List.mem_of_getElem? hr))⟩
    · cases hremade
  · exact h

/-- A cache that is new has told and raised nothing. -/
theorem prints_start (now : Moment) : (start now : Delivery K V).Prints :=
  ⟨.refl [], fun _ hr => absurd hr List.not_mem_nil⟩

end Delivery

variable [DecidableEq K]

/-- A step of a machine tells printable lines. -/
theorem Machine.printed_step? {m m' : Machine K V} {a : Action K V} (h : m.step? a = some m') :
    Printed m.log m'.log := by
  unfold step? at h
  -- Of all the steps only a check that clears and a clear write a line, and these are fixed ones.
  split at h
  · split at h
    · obtain rfl := Option.some.inj h
      exact .refl m.log
    · cases h
  · split at h
    · obtain rfl := Option.some.inj h
      unfold check
      rcases m.cache.refresh m.now with ⟨c, fault | _ | _⟩
      · exact .refl m.log
      · exact .refl m.log
      · exact .line m.log Cache.printable_refreshLine
    · cases h
  · split at h
    · obtain rfl := Option.some.inj h
      unfold look
      split <;> exact .refl m.log
    · cases h
  · split at h
    · split at h
      · cases h
      · obtain rfl := Option.some.inj h
        exact .refl m.log
    · cases h
  · split at h
    · obtain ⟨l, -, rfl⟩ := Option.map_eq_some_iff.mp h
      exact .refl m.log
    · cases h
  · obtain rfl := Option.some.inj h
    unfold clear
    rcases m.cache.clear m.now with ⟨c, _ | fault⟩
    · exact .line m.log Cache.printable_clearLine
    · exact .refl m.log
  · obtain rfl := Option.some.inj h
    exact .refl m.log

namespace Delivery

variable {d d' : Delivery K V} {move : Move K V}

/-- A move of printable errors and sources keeps all that was told and raised printable. -/
theorem Prints.step? (hd : d.Prints) (hmove : move.Prints) (h : d.step? move = some d') :
    d'.Prints := by
  have hlog : ∀ {a : Action K V} {machine : Machine K V}, d.machine.step? a = some machine →
      Printed [] machine.log := fun h => hd.log.trans (Machine.printed_step? h)
  -- An error comes in or is marked by a move, which is printable, and what is handed out is a copy
  -- of one that is there.
  unfold Delivery.step? at h
  split at h
  · obtain rfl := Option.some.inj h
    exact ⟨hd.log, List.forall_mem_append.mpr ⟨hd.errors, List.forall_mem_singleton.mpr hmove⟩⟩
  · obtain rfl := Option.some.inj h
    refine ⟨hd.log, fun r hr => ?_⟩
    obtain ⟨i, hi⟩ := List.mem_iff_getElem?.mp hr
    rw [List.getElem?_modify] at hi
    obtain ⟨r₀, hr₀, rfl⟩ := Option.map_eq_some_iff.mp hi
    have hfailure := hd.errors r₀ (List.mem_of_getElem? hr₀)
    split
    · exact hfailure.withSource hmove
    · exact hfailure
  · split at h
    · obtain ⟨machine, hstep, rfl⟩ := Option.map_eq_some_iff.mp h
      exact ⟨hlog hstep, hd.errors⟩
    · cases h
  · cases h
  · split at h
    · obtain ⟨machine, hstep, rfl⟩ := Option.map_eq_some_iff.mp h
      unfold receive
      split
      · exact ⟨hlog hstep, hd.errors⟩
      · exact ⟨hlog hstep, printable_handOut hd.errors _⟩
    · cases h
  · obtain ⟨machine, hstep, rfl⟩ := Option.map_eq_some_iff.mp h
    exact ⟨hlog hstep, hd.errors⟩

/-- So do several moves in order. -/
theorem Prints.run (hd : d.Prints) {moves : List (Move K V)}
    (hmoves : ∀ move ∈ moves, move.Prints) :
    (moves.foldl Delivery.step d).Prints := by
  induction moves generalizing d with
  | nil => exact hd
  | cons move rest ih =>
    obtain ⟨hmove, hrest⟩ := List.forall_mem_cons.mp hmoves
    refine ih ?_ hrest
    unfold Delivery.step
    rcases hstep : d.step? move with _ | d'
    · exact hd
    · exact hd.step? hmove hstep

end Delivery
end Stratum
