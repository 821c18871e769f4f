import Stratum.Cache.Machine

/-!
# Errors as objects

An error is an object: a computation raises one that there is, and whoever holds it may put another
source into it. The call that computed ends with that very object. A call that joined ends with a
new one, which the class makes anew of the texts that the old one comes down to by then, and whose
cause is the old one; if the class cannot be called with these texts, it ends with the old one.
-/

namespace Stratum

/-! ## Making errors -/

/-- What an error keeps of the texts that its class was called with, and the source beside them. -/
structure ErrorParts where
  kept : List String
  source : Option String
  deriving DecidableEq, Repr

/-- What the class of an error is called with: any texts, a message and a source, or two texts that
it joins to one. -/
inductive ErrorMaker
  | plain
  | sourced
  | joining
  deriving DecidableEq, Repr

/-- Calls a class with texts. It refuses those that it does not take. -/
def ErrorMaker.make? : ErrorMaker → List String → Option ErrorParts
  | .plain, texts => some ⟨texts, none⟩
  | .sourced, [message, source] => some ⟨[message], some source⟩
  | .joining, [first, second] => some ⟨[first ++ "/" ++ second], none⟩
  | _, _ => none

/-- The texts that an error comes down to: those that it keeps, and its source behind them. -/
def ErrorParts.reduced (p : ErrorParts) : List String := p.kept ++ p.source.toList

namespace Failure

/-- How the class of a failure makes its errors. -/
def maker : Failure → ErrorMaker
  | .malformed _ => .sourced
  | .host e =>
    match e.kind with
    | .malformed _ => .sourced
    | .unrepeatable => .joining
    | _ => .plain
  | _ => .plain

/-- What the error of a failure keeps, and its source if it names one. -/
def parts : Failure → ErrorParts
  | .malformed m => ⟨[m.message], some m.source⟩
  | .host e =>
    match e.kind with
    | .malformed source => ⟨[e.text], some source⟩
    | .unrepeatable => ⟨[e.message], none⟩
    | _ => ⟨[e.text], none⟩
  | e => ⟨[e.message], none⟩

/-- The failure of the same class whose error has other parts. What went wrong in the library itself
says its text, so that only the source of it can be another one. -/
def withParts (p : ErrorParts) : Failure → Failure
  | .malformed m => .malformed { m with source := p.source.getD m.source }
  | .host e =>
    match e.kind with
    | .malformed source => .host ⟨.malformed (p.source.getD source), p.kept.headD e.text⟩
    | .unrepeatable => .host e
    | kind => .host ⟨kind, p.kept.headD e.text⟩
  | e => e

/-- The failure with another source, if its class has one. -/
def withSource (source : String) (e : Failure) : Failure :=
  e.withParts { e.parts with source := some source }

/-- The failure of an error that is made anew, if its class takes what the error comes down to. -/
def remade? (e : Failure) : Option Failure := (e.maker.make? e.parts.reduced).map (e.withParts ·)

end Failure

/-- An error: what went wrong, and the error that is its cause. -/
structure ErrorObject where
  failure : Failure
  cause : Option Nat

/-! ## Handing errors out -/

/-- A machine with the errors made so far, the error that each failed flight raised, and the error
that each failed call ended with. -/
structure Delivery (K V : Type) where
  machine : Machine K V
  errors : List ErrorObject
  raised : List (Nat × Nat)
  ended : List (Nat × Nat)

/-- A step of the machine, an error that is made or given another source, or the end of a
computation that raises an error. -/
inductive Move (K V : Type)
  | act (a : Action K V)
  | make (e : Failure)
  | mark (error : Nat) (source : String)
  | raise (id error : Nat)

namespace Delivery

variable {K V : Type} [DecidableEq K]

/-- A machine without calls, and no errors. -/
def start (now : Moment) : Delivery K V := ⟨.start now, [], [], []⟩

/-- The error for a call that joined a flight which raised an error, and the errors after it. -/
def handOut (errors : List ErrorObject) (o : Nat) : Nat × List ErrorObject :=
  match errors[o]?.bind (·.failure.remade?) with
  | some e => (errors.length, errors ++ [⟨e, some o⟩])
  | none => (o, errors)

/-- The machine and the errors after a call got what the flight that it joined landed with. -/
def receive (d : Delivery K V) (id flight : Nat) (machine : Machine K V) : Delivery K V :=
  match d.raised.lookup flight with
  | none => { d with machine }
  | some o =>
    let (c, errors) := handOut d.errors o
    { d with machine, errors, ended := (id, c) :: d.ended }

/-- The step of the machine that belongs to a move, if there is one. -/
def action? (d : Delivery K V) : Move K V → Option (Action K V)
  | .act a => some a
  | .make _ | .mark _ _ => none
  | .raise id o => d.errors[o]?.map fun r => .finish id (.error r.failure)

/-- What follows a move, if it can be made. A computation fails by raising an error only. -/
def step? (d : Delivery K V) : Move K V → Option (Delivery K V)
  | .make e => some { d with errors := d.errors ++ [⟨e, none⟩] }
  | .mark o source =>
    some { d with
      errors := d.errors.modify o fun r => { r with failure := r.failure.withSource source } }
  | .raise id o =>
    match d.errors[o]?, d.machine.calls[id]? with
    | some r, some ⟨_, _, .computing flight _⟩ =>
      (d.machine.step? (.finish id (.error r.failure))).map fun machine =>
        { d with machine, raised := (flight, o) :: d.raised, ended := (id, o) :: d.ended }
    | _, _ => none
  | .act (.finish _ (.error _)) => none
  | .act (.receive id) =>
    match d.machine.calls[id]? with
    | some ⟨_, _, .joined flight⟩ => (d.machine.step? (.receive id)).map (d.receive id flight)
    | _ => none
  | .act a => (d.machine.step? a).map fun machine => { d with machine }

/-- What follows a move; one that cannot be made changes nothing. -/
def step (d : Delivery K V) (move : Move K V) : Delivery K V := (d.step? move).getD d

/-- The error that a call ended with, if it did. -/
def error? (d : Delivery K V) (id : Nat) : Option Nat := d.ended.lookup id

end Delivery
end Stratum
