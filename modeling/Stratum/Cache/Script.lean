import Stratum.Cache.Machine

/-!
# Scripts for a cache

A script of calls, clears and clock changes that is run against a cache, with a report on each step.
A computation has a script of its own, which is run inside it. A call may be made in another thread:
the thread is done at once unless its call joined a flight, and then its answer is there once that
flight has landed. A call that a computation makes may join a flight which lands only after that
computation, and then it waits for good: no later step of the computation is taken, and its own
flight stays in the air.
-/

namespace Stratum

/-- What a scripted computation ends with. -/
inductive Ending
  | value (v : Value)
  | failure (e : HostError)

mutual

/-- A step of a script. -/
inductive Command
  | get (key : Atom.Form) (computation : Computation)
  | spawn (thread : String) (key : Atom.Form) (computation : Computation)
  | join (thread : String)
  | contains (key : Atom.Form)
  | clear
  | setClock (now : Moment)

/-- A computation: the steps it takes and what it ends with. -/
inductive Computation
  | mk (steps : List Command) (ending : Ending)

end

/-- What the cache is like between two steps. -/
structure Snapshot where
  size : Nat
  generation : Nat
  deadline : Option Moment

mutual

/-- What a step came to. A call is reported with the reports of the steps that its computation took,
if it computed; so is one in another thread, with its answer if it has got one at once. The call may
have been left waiting for good, and so may the thread that the step is about. -/
inductive StepResult
  | got (answer : Option (Answer Slot)) (computed : Bool) (inner : List Report)
  | waits (inner : List Report)
  | thread (answer : Option (Answer Slot)) (inner : List Report)
  | stuck (inner : List Report)
  | contained (found : Bool)
  | cleared (fault : Option ClockFault)
  | nothing

/-- The report on a step: what it came to, the lines logged since the step before, and the cache. -/
inductive Report
  | mk (result : StepResult) (log : List Line) (snapshot : Snapshot)

end

/-- Whether the step was left waiting for good. -/
def Report.isWaiting : Report → Bool
  | .mk (.waits _) _ _ => true
  | _ => false

/-- What became of the call of a thread: its number, and the reports of its computation. -/
structure ThreadCall where
  id : Nat
  computed : Bool
  inner : List Report

/-- A running script: the machine, the objects made so far, and the threads. -/
structure Run where
  machine : Machine Atom.Form Slot
  heap : Heap
  threads : List (String × ThreadCall)

namespace Run

/-- The start of a script. -/
def start (now : Moment) : Run := ⟨.start now, .empty, []⟩

/-- Takes a step of the machine. -/
def act (a : Action Atom.Form Slot) : StateM Run Unit :=
  modify fun r => { r with machine := r.machine.step a }

/-- The report on a step, with the lines logged so far taken out. -/
def report (result : StepResult) : StateM Run Report := modifyGet fun r =>
  let c := r.machine.cache
  (.mk result r.machine.log ⟨c.size, c.generation, c.deadline⟩,
    { r with machine := { r.machine with log := [] } })

/-- What a computation ends with, a value being made anew. -/
def ending : Ending → StateM Run (Except Failure (Option Slot))
  | .failure e => return .error (.host e)
  | .value v => modifyGet fun r =>
    match r.heap.store v with
    | (.atom .null, heap) => (.ok none, { r with heap })
    | (s, heap) => (.ok (some s), { r with heap })

/-- Where a call stands. -/
def phase (id : Nat) : StateM Run (Option (Phase Slot)) := do
  return ((← get).machine.calls[id]?).map (·.phase)

/-- Starts a call, as far as it gets without computing, and gives its number. -/
def makeCall (parent : Option Nat) (key : Atom.Form) : StateM Run Nat := do
  let id := (← get).machine.calls.length
  act (.call parent key)
  act (.check id)
  act (.look id)
  return id

/-- The answer of a call, which gets what its flight landed with. -/
def answer? (id : Nat) : StateM Run (Option (Answer Slot)) := do
  act (.receive id)
  return (← get).machine.answer? id

mutual

/-- Makes a call inside the computation of another one. A computation with a step that waits for
good does not finish. -/
def call (parent : Option Nat) (key : Atom.Form) : Computation → StateM Run ThreadCall
  | .mk steps last => do
    let id ← makeCall parent key
    match ← phase id with
    | some (.computing _ _) =>
      let inner ← commands (some id) steps
      unless inner.any Report.isWaiting do
        act (.finish id (← ending last))
      return ⟨id, true, inner⟩
    | _ => return ⟨id, false, []⟩

/-- Takes a step inside a computation. -/
def command (parent : Option Nat) : Command → StateM Run Report
  | .get key c => do
    let made ← call parent key c
    match ← answer? made.id with
    | some answer => report (.got (some answer) made.computed made.inner)
    | none => report (.waits made.inner)
  | .spawn thread key c => do
    let made ← call none key c
    modify fun r => { r with threads := (thread, made) :: r.threads }
    match (← get).machine.answer? made.id, made.computed with
    | none, true => report (.stuck made.inner)
    | answer, _ => report (.thread answer made.inner)
  | .join thread => do
    match (← get).threads.lookup thread with
    | none => report (.got none false [])
    | some made =>
      match ← answer? made.id with
      | some answer => report (.got (some answer) made.computed made.inner)
      | none => report (.stuck made.inner)
  | .contains key => do report (.contained ((← get).machine.cache.contains key))
  | .clear => do
    let r ← get
    let fault := (r.machine.cache.clear r.machine.now).2
    act .clear
    report (.cleared fault)
  | .setClock now => do
    act (.setClock now)
    report .nothing

/-- Takes steps in order, up to one that waits for good. -/
def commands (parent : Option Nat) : List Command → StateM Run (List Report)
  | [] => return []
  | c :: rest => do
    let first ← command parent c
    if first.isWaiting then
      return [first]
    return first :: (← commands parent rest)

end

/-- Runs a script from the start. -/
def script (now : Moment) (steps : List Command) : List Report × Run :=
  (commands none steps).run (.start now)

end Run
end Stratum
