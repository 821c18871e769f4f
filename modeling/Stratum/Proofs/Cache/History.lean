import Stratum.Proofs.Cache.Steps
import Stratum.Proofs.Calendar.Midnight

/-!
# Runs and their history

A run is a list of steps, each taken from the machine that the one before led to. What happened in a
run is told by its steps: which calls looked which keys up and what they found, which flights were
registered, and which have landed with what. A run can be cut at any of its steps.
-/

namespace Stratum.Machine

variable {K V : Type}

/-! ## Histories -/

/-- A step of a kind was taken in a history. -/
def Happened (past : List (Step K V)) (p : Step K V → Prop) : Prop := ∃ s ∈ past, p s

/-- The flight of a call landed with the result of its computation. -/
def Landed (past : List (Step K V)) (id : Nat) (k : K) (flight generation : Nat)
    (result : Except Failure (Option V)) : Prop :=
  Happened past fun s => s.Lands id k flight generation result

/-- A call looked a key up and found something. -/
def Looked [DecidableEq K] (past : List (Step K V)) (id : Nat) (k : K) (found : Lookup V) : Prop :=
  Happened past fun s => s.Looks id k found

/-- A call registered a flight of a key in a generation, and computes. -/
def Registered [DecidableEq K] (past : List (Step K V)) (id : Nat) (k : K)
    (flight generation : Nat) : Prop :=
  Looked past id k (.started flight generation)

variable {past before after : List (Step K V)} {s : Step K V} {p : Step K V → Prop}

/-- Nothing happened in no step. -/
theorem not_happened_nil : ¬Happened [] p := by
  simp [Happened]

/-- What happened in a history in two parts happened in one of them. -/
theorem happened_append :
    Happened (before ++ after) p ↔ Happened before p ∨ Happened after p := by
  simp only [Happened, List.mem_append, or_and_right, exists_or]

/-- What happened happened in the first step or in a later one. -/
theorem happened_cons : Happened (s :: past) p ↔ p s ∨ Happened past p := by
  simp only [Happened, List.mem_cons, or_and_right, exists_or, exists_eq_left]

/-- What happened happened before the last step or in it. -/
theorem happened_snoc : Happened (past ++ [s]) p ↔ Happened past p ∨ p s := by
  simp [Happened, or_and_right, exists_or]

/-- Of two steps of a history one is the other, or comes before it. -/
theorem eq_or_before_of_mem {s t : Step K V} (hs : s ∈ past) (ht : t ∈ past) :
    s = t ∨ (∃ before after, past = before ++ t :: after ∧ s ∈ before) ∨
      ∃ before after, past = before ++ s :: after ∧ t ∈ before := by
  obtain ⟨before, after, rfl⟩ := List.append_of_mem ht
  rcases List.mem_append.mp hs with hs | hs
  · exact .inr (.inl ⟨before, after, rfl, hs⟩)
  · rcases List.mem_cons.mp hs with hs | hs
    · exact .inl hs
    · obtain ⟨between, rest, rfl⟩ := List.append_of_mem hs
      refine .inr (.inr ⟨before ++ t :: between, rest, ?_, ?_⟩)
      · rw [List.append_assoc, List.cons_append]
      · exact List.mem_append_right before List.mem_cons_self

/-! ## Runs -/

variable [DecidableEq K]

/-- Steps that lead from one machine to another. -/
inductive Runs (m₀ : Machine K V) : List (Step K V) → Machine K V → Prop
  | refl : Runs m₀ [] m₀
  | step {past : List (Step K V)} {s : Step K V} {m : Machine K V} :
      Runs m₀ past s.before → s.LeadsTo m → Runs m₀ (past ++ [s]) m

variable {m₀ m m' : Machine K V}

/-- A run after a run is a run. -/
theorem Runs.trans (h : Runs m₀ before m) (h' : Runs m after m') :
    Runs m₀ (before ++ after) m' := by
  induction h' with
  | refl => rwa [List.append_nil]
  | step _ hs ih =>
    rw [← List.append_assoc]
    exact ih.step hs

/-- A run is a run up to one of its steps, that step, and a run from there. -/
theorem Runs.split (h : Runs m₀ (before ++ s :: after) m) :
    Runs m₀ before s.before ∧ ∃ m', s.LeadsTo m' ∧ Runs m' after m := by
  generalize hpast : before ++ s :: after = past at h
  induction h generalizing after with
  | refl => simp at hpast
  | @step past t m hrun ht ih =>
    -- The last step of the run is the one at which it is cut, or comes after it.
    rcases List.eq_nil_or_concat after with rfl | ⟨rest, u, rfl⟩
    · obtain ⟨rfl, hst⟩ := List.append_inj' hpast rfl
      obtain rfl := List.singleton_inj.mp hst
      exact ⟨hrun, m, ht, .refl⟩
    · rw [List.concat_eq_append, ← List.cons_append, ← List.append_assoc] at hpast
      obtain ⟨rfl, htu⟩ := List.append_inj' hpast rfl
      obtain rfl := List.singleton_inj.mp htu
      obtain ⟨hbefore, m', hs, hafter⟩ := ih rfl
      rw [List.concat_eq_append]
      exact ⟨hbefore, m', hs, hafter.step ht⟩

/-- A run that takes a step and goes on is a run. -/
theorem Runs.cons (hs : s.LeadsTo m') (h : Runs m' after m) : Runs s.before (s :: after) m := by
  have hfirst : Runs s.before ([] ++ [s]) m' := .step .refl hs
  exact hfirst.trans h

/-- The machines that can be reached are those that runs lead to. -/
theorem reachable_iff_runs {now : Moment} :
    Reachable now m ↔ ∃ past, Runs (start now) past m := by
  constructor
  · intro h
    induction h with
    | start => exact ⟨[], .refl⟩
    | @step m m' a _ hs ih =>
      obtain ⟨past, hrun⟩ := ih
      exact ⟨past ++ [⟨m, a⟩], .step (s := ⟨m, a⟩) hrun hs⟩
  · rintro ⟨past, h⟩
    induction h with
    | refl => exact .start
    | step _ hs ih => exact ih.step hs

/-- The steps that a list of actions takes, one after the other. -/
def trace (m : Machine K V) : List (Action K V) → List (Step K V)
  | [] => []
  | a :: as => ⟨m, a⟩ :: trace (m.step a) as

/-- The steps taken are steps of the actions. -/
theorem action_mem_of_mem_trace {as : List (Action K V)} (hs : s ∈ trace m as) :
    s.action ∈ as := by
  induction as generalizing m with
  | nil => exact absurd hs List.not_mem_nil
  | cons a as ih =>
    rcases List.mem_cons.mp hs with rfl | hs
    · exact List.mem_cons_self
    · exact List.mem_cons_of_mem a (ih hs)

/-- Actions that can all be taken make a run. -/
theorem runs_trace {as : List (Action K V)}
    (h : (trace m as).all fun s => (s.before.step? s.action).isSome) :
    Runs m (trace m as) (as.foldl step m) := by
  induction as generalizing m with
  | nil => exact .refl
  | cons a as ih =>
    simp only [trace, List.all_cons, Bool.and_eq_true] at h
    obtain ⟨m', hs⟩ := Option.isSome_iff_exists.mp h.1
    have hstep : m.step a = m' := by rw [step, hs, Option.getD_some]
    rw [hstep] at h
    have hrun := ih h.2
    rw [trace, List.foldl_cons, hstep]
    exact .cons (s := ⟨m, a⟩) hs hrun

/-- The start of the runs that are given step by step: the first of May, at noon. -/
def noon : Machine K V := start (.inMay 0 12 0)

end Stratum.Machine
