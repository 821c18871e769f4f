import Stratum.Cache.Basic
import Stratum.Resolve

/-!
# The engine

Configs by name, kept in a cache. Each way of asking has a key of its own: the raw text of a file,
the mapping of a name, or the object of a name and a shape, each with its path hint. What cannot be
found and what fails is not kept. Asking past the cache, or for a stream, always looks at the files.
-/

namespace Stratum

/-- What tells shapes apart in a cache: two of the kinds are one shape each, and of the others every
declaration is a shape of its own. -/
inductive ShapeId
  | mapping
  | openObject
  | declared (label : String)
  deriving DecidableEq, Repr

/-- A shape as a host declares it, under a label that no other declaration has. -/
structure DeclaredShape where
  label : String
  shape : Shape

/-- What tells a declared shape apart. -/
def DeclaredShape.id (d : DeclaredShape) : ShapeId :=
  match d.shape with
  | .mapping => .mapping
  | .openObject => .openObject
  | _ => .declared d.label

/-- The key of an answer in the cache. -/
inductive CacheKey
  | string (filename hint : String)
  | map (name hint : String)
  | object (name : String) (shape : ShapeId) (hint : String)
  deriving DecidableEq, Repr

/-- An engine: how it resolves names, and its cache. -/
structure Engine where
  resolver : Resolver
  cache : Cache CacheKey Slot

/-- The cache of an engine, and the objects and lines. -/
structure EngineState where
  cache : Cache CacheKey Slot
  store : Store

/-- A step of an engine, which changes its cache and acts. -/
abbrev EngineAct (α : Type) := ExceptT Failure (StateM EngineState) α

/-- What an engine meets when it is asked: the files and the time. -/
structure Surroundings where
  files : FileTree
  now : Moment

namespace EngineAct

/-- An act that leaves the cache alone. -/
def ofAct {α : Type} (act : Act α) : EngineAct α := fun s =>
  let (a, store) := act.run.run s.store
  (a, { s with store })

/-- A step of the cache. -/
def onCache {α : Type} (f : Cache CacheKey Slot → α × Cache CacheKey Slot) : EngineAct α :=
  modifyGet fun s =>
    let (a, cache) := f s.cache
    (a, { s with cache })

/-- Tells the logger a line. -/
def say (line : Line) : EngineAct Unit :=
  ofAct (Act.tell line.level line.topic line.message)

/-- Clears the cache if it is expired. -/
def refresh (now : Moment) : EngineAct Unit := do
  match ← onCache fun c => let (c, r) := c.refresh now; (r, c) with
  | .error fault => throw fault.failure
  | .ok cleared => if cleared then say Cache.refreshLine

/-- The value under a key, computed if it is not there. In a run without other threads nobody is
ahead whose flight could be joined but the computation itself, which would wait for ever. -/
def fetch (now : Moment) (key : CacheKey) (compute : Act (Option Slot)) :
    EngineAct (Option Slot) := do
  refresh now
  match ← onCache (·.lookup key) with
  | .hit v => return some v
  | .joined _ => throw .blocked
  | .started flight generation =>
    match ← ofAct (observe compute) with
    | .ok v =>
      onCache fun c => ((), c.land key flight generation v)
      return v
    | .error e =>
      onCache fun c => ((), c.land key flight generation none)
      throw e
where
  /-- The end of an act as an answer. -/
  observe (act : Act (Option Slot)) : Act (Except Failure (Option Slot)) := fun s =>
    let (r, s) := act.run.run s
    (.ok r, s)

end EngineAct

namespace Resolver

/-- The raw text of a file, from the cache if it is there. -/
def getString (r : Resolver) (w : Surroundings) (filename hint : String) :
    EngineAct (Option Slot) :=
  EngineAct.fetch w.now (.string filename hint) do
    return (← r.resolveString w.files filename hint).map fun s => .atom (.text s)

/-- The mapping of a name, from the cache if it is there. -/
def getMap (r : Resolver) (w : Surroundings) (name hint : String) : EngineAct (Option Slot) :=
  EngineAct.fetch w.now (.map name hint) (r.resolveMap w.files name hint)

/-- The object of a name and a shape, from the cache if it is there. -/
def getObject (r : Resolver) (w : Surroundings) (name : String) (d : DeclaredShape)
    (hint : String) : EngineAct (Option Slot) :=
  EngineAct.fetch w.now (.object name d.id hint) (r.resolveObject w.files name d.shape hint)

/-- The mapping of a name, past the cache. -/
def getMapNoCache (r : Resolver) (w : Surroundings) (name hint : String) :
    EngineAct (Option Slot) :=
  EngineAct.ofAct (r.resolveMap w.files name hint)

/-- The stream of a file, past the cache. -/
def getStream (r : Resolver) (w : Surroundings) (filename hint : String) :
    EngineAct (Option Stream) :=
  EngineAct.ofAct (r.search.locate w.files filename hint)

/-- Drops all that the cache holds. -/
def clear (w : Surroundings) : EngineAct Unit := do
  match ← EngineAct.onCache fun c => let (c, fault) := c.clear w.now; (fault, c) with
  | some fault => throw fault.failure
  | none => EngineAct.say Cache.clearLine

end Resolver

namespace Engine

/-- An engine without managed values and with nothing in its cache. -/
def plain (search : Search) : Engine := ⟨⟨search, Overlay.nothing⟩, .empty⟩

/-- An act of an engine with its cache. -/
def run {α : Type} (e : Engine) (act : Resolver → EngineAct α) (store : Store) :
    Except Failure α × Engine × Store :=
  let (a, s) := (act e.resolver).run.run ⟨e.cache, store⟩
  (a, { e with cache := s.cache }, s.store)

end Engine
end Stratum
