import Stratum.Failure
import Stratum.Heap
import Stratum.Log

/-!
# Acts

What the library does besides answering: it makes and changes objects, and it tells the logger. An
act may fail, and what it did before stays done.
-/

namespace Stratum

/-- The objects made so far and the lines logged so far. -/
structure Store where
  heap : Heap
  log : List Line

/-- Nothing made and nothing logged. -/
def Store.empty : Store := ⟨.empty, []⟩

/-- An answer or a failure, with what was done on the way. -/
abbrev Act (α : Type) := ExceptT Failure (StateM Store) α

namespace Act

/-- Tells the logger. -/
def tell (level : Level) (topic message : String) : Act Unit :=
  modify fun s => { s with log := s.log ++ [⟨level, topic, message⟩] }

/-- A reading of the heap. -/
def look {α : Type} (f : Heap → α) : Act α := do return f (← get).heap

/-- A step that makes or changes objects. -/
def make {α : Type} (f : Heap → α × Heap) : Act α := modifyGet fun s =>
  let (a, heap) := f s.heap
  (a, { s with heap })

/-- A step that makes or changes objects, or fails and does nothing. -/
def makeOr {α : Type} (e : Failure) (f : Heap → Option (α × Heap)) : Act α := do
  match f (← get).heap with
  | none => throw e
  | some (a, heap) =>
    modify fun s => { s with heap }
    return a

/-- An answer that may be a failure. -/
def ofExcept {α : Type} : Except Failure α → Act α
  | .ok a => return a
  | .error e => throw e

end Act
end Stratum
