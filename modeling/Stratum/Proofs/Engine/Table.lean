import Stratum.Proofs.Calendar.Midnight
import Stratum.Proofs.Engine.Session

/-!
# The table of answers

What an engine's cache is meant to be: a table with a row for each kind, name, shape and path hint.
It is emptied on demand, by a getter before which it never was, and by a getter that reads a time
later than the first midnight after the last emptying. A row that is there is the answer, whatever
the files say by now; else the files are looked at, and what is found goes into its row.
-/

namespace Stratum

/-- What a getter asks for. -/
inductive Kind
  | string
  | map
  | object
  deriving DecidableEq, Repr

/-- The place of an answer: the kind, the name, the shape if an object is asked for, and the path
hint. -/
structure Row where
  kind : Kind
  name : String
  shape : Option ShapeId
  hint : String
  deriving DecidableEq, Repr

/-- The row of a getter's answer. -/
def Getter.row : Getter → Row
  | .string filename hint => ⟨.string, filename, none, hint⟩
  | .map name hint => ⟨.map, name, none, hint⟩
  | .object name shape hint => ⟨.object, name, some shape.id, hint⟩

/-- What is found in the files for a getter. -/
def Getter.resolve (t : FileTree) (r : Resolver) : Getter → Act (Option Slot)
  | .string filename hint => do
    return (← r.resolveString t filename hint).map fun s => .atom (.text s)
  | .map name hint => r.resolveMap t name hint
  | .object name shape hint => r.resolveObject t name shape.shape hint

/-- What is found in the files for a request that always looks at them. -/
def Probe.resolve (t : FileTree) (r : Resolver) : Probe → Act Reply
  | .mapNoCache name hint | .resolveMap name hint => do return .slot (← r.resolveMap t name hint)
  | .stream filename hint | .locate filename hint => do
    return .stream (← r.search.locate t filename hint)
  | .resolveString filename hint => do return .text (← r.resolveString t filename hint)
  | .resolveObject name shape hint => do return .slot (← r.resolveObject t name shape hint)

/-- What a store holds after the logger was told a line. -/
def Store.say (line : Line) (s : Store) : Store := { s with log := s.log ++ [line] }

/-- The answers by row, and when the table was last emptied. -/
structure Table where
  rows : Row → Option Slot
  emptied : Option Moment

namespace Table

/-- A table that was never emptied. -/
def new : Table := ⟨fun _ => none, none⟩

/-- A table that was emptied at a moment. -/
def emptiedAt (now : Moment) : Table := ⟨fun _ => none, some now⟩

/-- A table with an answer in its row. -/
def put (row : Row) (s : Slot) (t : Table) : Table :=
  { t with rows := fun r => if r = row then some s else t.rows r }

/-- Whether a getter that reads a time empties the table: if it was never emptied, or if the time is
later than the first midnight after the last emptying. A time with an offset and one without have no
order, and then the getter fails. -/
def isStale (t : Table) (now : Moment) : Except ClockFault Bool :=
  match t.emptied with
  | none => .ok true
  | some emptied =>
    if now.comparable emptied then .ok (emptied.firstMidnight < now.instant)
    else .error .incomparable

/-- The answer in a row, with the table and the store after it. What is found for an empty row is
put into it unless it is nothing or a failure. -/
def lookUp (row : Row) (find : Act (Option Slot)) (t : Table) (store : Store) :
    Except Failure (Option Slot) × Table × Store :=
  match t.rows row with
  | some s => (.ok (some s), t, store)
  | none =>
    match find.run.run store with
    | (.ok (some s), store) => (.ok (some s), t.put row s, store)
    | (.ok none, store) => (.ok none, t, store)
    | (.error e, store) => (.error e, t, store)

/-- The answer of a getter that reads a time: from the table, which is emptied before if it is
stale. -/
def fetch (now : Moment) (row : Row) (find : Act (Option Slot)) (t : Table) (store : Store) :
    Except Failure (Option Slot) × Table × Store :=
  match t.isStale now with
  | .error fault => (.error fault.failure, t, store)
  | .ok true => (emptiedAt now).lookUp row find (store.say Cache.refreshLine)
  | .ok false => t.lookUp row find store

/-- A table answers a request. -/
def serve : Session.Server Table := fun q s =>
  match q with
  | .get g =>
    let (answer, kept, store) :=
      s.kept.fetch s.world.now g.row (g.resolve s.world.files s.resolver) s.store
    (answer.map .slot, { s with kept, store })
  | .probe p =>
    let (answer, store) := (p.resolve s.world.files s.resolver).run.run s.store
    (answer, { s with store })
  | .clear =>
    (.ok .cleared,
      { s with kept := emptiedAt s.world.now, store := s.store.say Cache.clearLine })

end Table
end Stratum
