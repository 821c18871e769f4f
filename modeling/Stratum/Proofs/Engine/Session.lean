import Stratum.Engine

/-!
# Sessions

A session asks for configs, one request after the other, while the files, the resources of a bundle
and the clock change between the requests. What is kept between requests is a parameter: an engine
keeps its cache, and a specification may keep something else. `Session.run` gives the answers in
order.
-/

namespace Stratum

/-- A request whose answer is kept. -/
inductive Getter
  | string (filename hint : String)
  | map (name hint : String)
  | object (name : String) (shape : DeclaredShape) (hint : String)

/-- A request that always looks at the files: past the cache, of the resolver, or of the search. -/
inductive Probe
  | mapNoCache (name hint : String)
  | stream (filename hint : String)
  | resolveString (filename hint : String)
  | resolveMap (name hint : String)
  | resolveObject (name : String) (shape : Shape) (hint : String)
  | locate (filename hint : String)

/-- What a host asks. -/
inductive Request
  | get (g : Getter)
  | probe (p : Probe)
  | clear

/-- What a request is answered with unless it fails. -/
inductive Reply
  | slot (s : Option Slot)
  | text (s : Option String)
  | stream (s : Option Stream)
  | cleared

/-- A step of a session: a request, or a change of what is around the engine. Files are written and
removed by giving the file system that is there afterwards. -/
inductive SessionStep
  | ask (q : Request)
  | files (t : FileTree)
  | resources (files : List (List String × Resource))
  | clock (now : Moment)

/-- A session between two requests, with what is kept. -/
structure Session (M : Type) where
  resolver : Resolver
  kept : M
  store : Store
  world : Surroundings

/-- A bundle with other resources; a folder stays where it is. -/
def Bundle.withResources (files : List (List String × Resource)) : Bundle → Bundle
  | .folder path => .folder path
  | .resources _ => .resources files

/-- A resolver whose bundle has other resources. -/
def Resolver.withResources (files : List (List String × Resource)) (r : Resolver) : Resolver :=
  { r with search := { r.search with bundle := r.search.bundle.map (Bundle.withResources files) } }

namespace Session

variable {M : Type}

/-- What answers a request. -/
abbrev Server (M : Type) := Request → Session M → Except Failure Reply × Session M

/-- A step of a session; only a request has an answer. -/
def step (serve : Server M) (s : Session M) : SessionStep →
    Option (Except Failure Reply) × Session M
  | .ask q =>
    let (answer, s) := serve q s
    (some answer, s)
  | .files t => (none, { s with world := { s.world with files := t } })
  | .resources files => (none, { s with resolver := s.resolver.withResources files })
  | .clock now => (none, { s with world := { s.world with now } })

/-- The steps of a session in order, with their answers. -/
def run (serve : Server M) (s : Session M) : List SessionStep →
    List (Option (Except Failure Reply)) × Session M
  | [] => ([], s)
  | a :: rest =>
    let (answer, s) := s.step serve a
    let (answers, s) := s.run serve rest
    (answer :: answers, s)

end Session

/-! ## The engine as a server -/

/-- Asks an engine for a config that is kept. -/
def Getter.ask (w : Surroundings) (r : Resolver) : Getter → EngineAct (Option Slot)
  | .string filename hint => r.getString w filename hint
  | .map name hint => r.getMap w name hint
  | .object name shape hint => r.getObject w name shape hint

/-- Asks an engine, its resolver or its search past the cache. -/
def Probe.ask (w : Surroundings) (r : Resolver) : Probe → EngineAct Reply
  | .mapNoCache name hint => do return .slot (← r.getMapNoCache w name hint)
  | .stream filename hint => do return .stream (← r.getStream w filename hint)
  | .resolveString filename hint =>
    EngineAct.ofAct do return .text (← r.resolveString w.files filename hint)
  | .resolveMap name hint => EngineAct.ofAct do return .slot (← r.resolveMap w.files name hint)
  | .resolveObject name shape hint =>
    EngineAct.ofAct do return .slot (← r.resolveObject w.files name shape hint)
  | .locate filename hint =>
    EngineAct.ofAct do return .stream (← r.search.locate w.files filename hint)

/-- Asks an engine. -/
def Request.ask (w : Surroundings) (r : Resolver) : Request → EngineAct Reply
  | .get g => do return .slot (← g.ask w r)
  | .probe p => p.ask w r
  | .clear => do
    Resolver.clear w
    return .cleared

/-- An engine answers a request and keeps its cache. -/
def Engine.serve : Session.Server (Cache CacheKey Slot) := fun q s =>
  let (answer, engine, store) := Engine.run ⟨s.resolver, s.kept⟩ (q.ask s.world) s.store
  (answer, { s with resolver := engine.resolver, kept := engine.cache, store })

end Stratum
