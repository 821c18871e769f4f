import Stratum.Cache.Basic

/-!
# Calls to a cache

Any number of calls to one cache, in any order of their steps. A call checks whether the cache is
expired, looks its key up, and then has its value, joins a flight, or computes. A computation may
make calls of its own, one at a time, and lands when they are answered. Whoever joined a flight gets
what it landed with: the same value, or a copy of the failure, or the failure itself if it cannot be
copied.
-/

namespace Stratum

/-- Whether a failure can be copied for those who joined. -/
def Failure.isRepeatable : Failure → Bool
  | .host e => e.kind != .unrepeatable
  | _ => true

/-- What a flight landed with. Failures of computations are numbered. -/
inductive Landing (V : Type)
  | value (v : V)
  | nothing
  | failed (e : Failure) (number : Nat)

/-- What a call is answered with. -/
inductive Answer (V : Type)
  | value (v : V)
  | nothing
  | failure (e : Failure) (number : Nat)
  | copied (e : Failure) (number : Nat)
  | clock (fault : ClockFault)

/-- What the call that computed is answered with. -/
def Landing.toOwner {V : Type} : Landing V → Answer V
  | .value v => .value v
  | .nothing => .nothing
  | .failed e n => .failure e n

/-- What a call that joined is answered with. -/
def Landing.toJoined {V : Type} : Landing V → Answer V
  | .value v => .value v
  | .nothing => .nothing
  | .failed e n => if e.isRepeatable then .copied e n else .failure e n

/-- Where a call stands. -/
inductive Phase (V : Type)
  | called
  | checked
  | joined (flight : Nat)
  | computing (flight generation : Nat)
  | answered (a : Answer V)

/-- Whether a call has its answer. -/
def Phase.isAnswered {V : Type} : Phase V → Bool
  | .answered _ => true
  | _ => false

/-- A call: its key, the call whose computation made it, and where it stands. -/
structure Call (K V : Type) where
  key : K
  parent : Option Nat
  phase : Phase V

/-- A cache with its clock, the calls to it, what flights landed with, the number of failures so
far, and the lines logged. -/
structure Machine (K V : Type) where
  cache : Cache K V
  now : Moment
  calls : List (Call K V)
  landed : List (Nat × Landing V)
  failures : Nat
  log : List Line

/-- A step of one call, of whoever clears the cache, or of the clock. -/
inductive Action (K V : Type)
  | call (parent : Option Nat) (key : K)
  | check (id : Nat)
  | look (id : Nat)
  | finish (id : Nat) (result : Except Failure (Option V))
  | receive (id : Nat)
  | clear
  | setClock (now : Moment)

namespace Machine

variable {K V : Type} [DecidableEq K]

/-- A cache without calls. -/
def start (now : Moment) : Machine K V := ⟨.empty, now, [], [], 0, []⟩

/-- The machine with a call brought to a phase. -/
def setPhase (m : Machine K V) (id : Nat) (p : Phase V) : Machine K V :=
  { m with calls := m.calls.modify id fun c => { c with phase := p } }

/-- Whether a call that a computation made has no answer yet. -/
def hasOpenCall (m : Machine K V) (id : Nat) : Bool :=
  m.calls.any fun c => c.parent == some id && !c.phase.isAnswered

/-- Whether a call is computing and may make a call. -/
def mayCall (m : Machine K V) : Option Nat → Bool
  | none => true
  | some id =>
    match m.calls[id]? with
    | some ⟨_, _, .computing _ _⟩ => !m.hasOpenCall id
    | _ => false

/-- Checks for a call whether the cache is expired. -/
def check (m : Machine K V) (id : Nat) : Machine K V :=
  match m.cache.refresh m.now with
  | (cache, .error fault) => { m with cache }.setPhase id (.answered (.clock fault))
  | (cache, .ok cleared) =>
    let log := if cleared then m.log ++ [Cache.refreshLine] else m.log
    { m with cache, log }.setPhase id .checked

/-- Looks the key of a call up. -/
def look (m : Machine K V) (id : Nat) (key : K) : Machine K V :=
  match m.cache.lookup key with
  | (.hit v, cache) => { m with cache }.setPhase id (.answered (.value v))
  | (.joined flight, cache) => { m with cache }.setPhase id (.joined flight)
  | (.started flight generation, cache) =>
    { m with cache }.setPhase id (.computing flight generation)

/-- What a computation's result lands as. -/
def landing (failures : Nat) : Except Failure (Option V) → Landing V
  | .ok (some v) => .value v
  | .ok none => .nothing
  | .error e => .failed e failures

/-- The value that a result may leave in the cache. -/
def kept : Except Failure (Option V) → Option V
  | .ok v => v
  | .error _ => none

/-- Ends the computation of a call. -/
def finish (m : Machine K V) (id : Nat) (key : K) (flight generation : Nat)
    (result : Except Failure (Option V)) : Machine K V :=
  let l := landing m.failures result
  { m with
    cache := m.cache.land key flight generation (kept result)
    landed := (flight, l) :: m.landed
    failures := match result with
      | .ok _ => m.failures
      | .error _ => m.failures + 1 }.setPhase id (.answered l.toOwner)

/-- Clears the cache on demand. -/
def clear (m : Machine K V) : Machine K V :=
  match m.cache.clear m.now with
  | (cache, none) => { m with cache, log := m.log ++ [Cache.clearLine] }
  | (cache, some _) => { m with cache }

/-- The machine after a step, if the step can be taken. -/
def step? (m : Machine K V) : Action K V → Option (Machine K V)
  | .call parent key =>
    if m.mayCall parent then some { m with calls := m.calls ++ [⟨key, parent, .called⟩] } else none
  | .check id =>
    match m.calls[id]? with
    | some ⟨_, _, .called⟩ => some (m.check id)
    | _ => none
  | .look id =>
    match m.calls[id]? with
    | some ⟨key, _, .checked⟩ => some (m.look id key)
    | _ => none
  | .finish id result =>
    match m.calls[id]? with
    | some ⟨key, _, .computing flight generation⟩ =>
      if m.hasOpenCall id then none else some (m.finish id key flight generation result)
    | _ => none
  | .receive id =>
    match m.calls[id]? with
    | some ⟨_, _, .joined flight⟩ =>
      (m.landed.lookup flight).map fun l => m.setPhase id (.answered l.toJoined)
    | _ => none
  | .clear => some m.clear
  | .setClock now => some { m with now }

/-- The machine after a step; a step that cannot be taken changes nothing. -/
def step (m : Machine K V) (a : Action K V) : Machine K V := (m.step? a).getD m

/-- The machines that steps lead to from the start. -/
inductive Reachable (now : Moment) : Machine K V → Prop
  | start : Reachable now (Machine.start now)
  | step {m m' : Machine K V} {a : Action K V} :
      Reachable now m → m.step? a = some m' → Reachable now m'

/-- The answer of a call, if it has one. -/
def answer? (m : Machine K V) (id : Nat) : Option (Answer V) :=
  match m.calls[id]? with
  | some ⟨_, _, .answered a⟩ => some a
  | _ => none

end Machine
end Stratum
