import Stratum.Proofs.Cache.Reports
import Stratum.Proofs.Engine.Ledger
import Stratum.Proofs.Resolve.Printing

/-!
# No line can be forged

Whatever files, names and hints an engine meets, whatever its managed values are called and whatever
the operating system says, every line that the logger is told is printable, and so are the message
and the source of every report of content that cannot be used (`Session.diagnostics_printable`).
-/

namespace Stratum

open Text (printable_of_all)

/-! ## Requests -/

/-- The error that the host's own code ends a request with: that of the shape that is asked for. -/
def Request.rejection? : Request → Option HostError
  | .get (.object _ d _) => d.shape.rejection?
  | .probe (.resolveObject _ shape _) => shape.rejection?
  | _ => none

section Requests

open Act (Prints prints_pure)

variable {t : FileTree} {r : Resolver} {o : Overlay}

/-- Looking for what a getter finds prints. -/
theorem Getter.prints_resolve (g : Getter) (hr : r.provider = o) :
    (g.resolve t r).Prints (· ∈ (Request.get g).rejection?) := by
  obtain ⟨s, _⟩ := r
  obtain rfl := hr
  cases g with
  | string filename hint =>
    exact (Resolver.prints_resolveString _ t hint filename).bind fun text => prints_pure _
  | map name hint => exact Resolver.prints_resolveMap t name hint s o
  | object name d hint => exact Resolver.prints_resolveObject t name hint s o d.shape

/-- Looking for what a request past the cache finds prints. -/
theorem Probe.prints_resolve (p : Probe) (hr : r.provider = o) :
    (p.resolve t r).Prints (· ∈ (Request.probe p).rejection?) := by
  obtain ⟨s, _⟩ := r
  obtain rfl := hr
  cases p with
  | mapNoCache name hint | resolveMap name hint =>
    exact (Resolver.prints_resolveMap t name hint s o).bind fun found => prints_pure _
  | stream filename hint | locate filename hint =>
    exact (Search.prints_locate t s filename hint).bind fun found => prints_pure _
  | resolveString filename hint =>
    exact (Resolver.prints_resolveString _ t hint filename).bind fun text => prints_pure _
  | resolveObject name shape hint =>
    exact (Resolver.prints_resolveObject t name hint s o shape).bind fun found => prints_pure _

end Requests

/-! ## Sessions -/

/-- What goes wrong with a clock is no report of content. -/
theorem ClockFault.printable_failure (fault : ClockFault) (host : HostError → Prop) :
    fault.failure.Printable host := by
  cases fault <;> trivial

namespace EngineAct

/-- A fetch prints if what it computes does. -/
theorem prints_fetch {host : HostError → Prop} {compute : Act (Option Slot)}
    (h : compute.Prints host) (now : Moment) (key : CacheKey) (s : EngineState) :
    Printed s.store.log ((fetch now key compute).run.run s).2.store.log ∧
      ∀ e, ((fetch now key compute).run.run s).1 = .error e → e.Printable host := by
  rw [run_fetch, run_refresh]
  rcases s.cache.refresh now with ⟨c, fault | cleared⟩
  · refine ⟨.refl _, ?_⟩
    rintro e ⟨⟩
    exact fault.printable_failure host
  · dsimp only
    have hrefresh : Printed s.store.log
        (if cleared = true then s.store.say Cache.refreshLine else s.store).log := by
      cases cleared
      · exact .refl _
      · exact .line _ Cache.printable_refreshLine
    -- The look-up is the same whether the cache was cleared before it or not.
    generalize (if cleared = true then s.store.say Cache.refreshLine else s.store) = st
      at hrefresh ⊢
    obtain ⟨hlog, hfails⟩ := h st
    rcases c.lookup key with ⟨v | flight | ⟨flight, generation⟩, c'⟩
    · refine ⟨hrefresh, ?_⟩
      rintro e ⟨⟩
    · refine ⟨hrefresh, ?_⟩
      rintro e ⟨⟩
      trivial
    · dsimp only
      rcases hrun : compute.run.run st with ⟨e | v, st'⟩
      all_goals rw [hrun] at hlog hfails
      · exact ⟨hrefresh.trans hlog, hfails⟩
      · refine ⟨hrefresh.trans hlog, ?_⟩
        rintro e ⟨⟩

end EngineAct

/-- An engine with an overlay that answers a request tells printable lines, and what it fails with
is reported in printable words. -/
theorem Engine.printed_serve (q : Request) {s : Session (Cache CacheKey Slot)} {o : Overlay}
    (hs : s.resolver.provider = o) :
    Printed s.store.log (Engine.serve q s).2.store.log ∧
      ∀ e, (Engine.serve q s).1 = .error e → e.Printable (· ∈ q.rejection?) := by
  -- Each request is served by one of the parts, whose lines and errors are printable.
  cases q with
  | get g =>
    have hfetch := EngineAct.prints_fetch (g.prints_resolve (t := s.world.files) hs) s.world.now
      g.key ⟨s.kept, s.store⟩
    rw [serve_get]
    dsimp only at hfetch ⊢
    rcases hrun : (EngineAct.fetch s.world.now g.key
      (g.resolve s.world.files s.resolver)).run.run ⟨s.kept, s.store⟩ with ⟨e | found, st⟩
    all_goals rw [hrun] at hfetch
    · exact ⟨hfetch.1, fun e' he' => hfetch.2 e' (by rw [← Except.error.inj he'])⟩
    · refine ⟨hfetch.1, ?_⟩
      rintro e ⟨⟩
  | probe p =>
    rw [serve_probe]
    exact p.prints_resolve hs s.store
  | clear =>
    rw [serve_clear]
    rcases s.kept.clear s.world.now with ⟨kept, _ | fault⟩
    · refine ⟨.line _ Cache.printable_clearLine, ?_⟩
      rintro e ⟨⟩
    · refine ⟨.refl _, ?_⟩
      rintro e ⟨⟩
      exact fault.printable_failure _

/-- What a step of a session is answered with is reported in printable words if it is a failure. -/
def SessionStep.Reports (a : SessionStep) (answer : Option (Except Failure Reply)) : Prop :=
  ∀ q e, a = .ask q → answer = some (.error e) → e.Printable (· ∈ q.rejection?)

namespace Session

variable {s : Session (Cache CacheKey Slot)} {o : Overlay}

/-- A session keeps its provider. -/
theorem provider_step (s : Session (Cache CacheKey Slot)) (a : SessionStep) :
    (s.step Engine.serve a).2.resolver.provider = s.resolver.provider := by
  cases a <;> rfl

/-- A step of a session with an overlay tells printable lines and reports in printable words. -/
theorem printed_step (hs : s.resolver.provider = o) (a : SessionStep) :
    Printed s.store.log (s.step Engine.serve a).2.store.log ∧
      a.Reports (s.step Engine.serve a).1 := by
  cases a with
  | ask q =>
    obtain ⟨hlog, hfails⟩ := Engine.printed_serve q hs
    refine ⟨hlog, ?_⟩
    rintro _ e ⟨⟩ he
    exact hfails e (Option.some.inj he)
  | files t | resources files | clock now =>
    refine ⟨.refl _, ?_⟩
    rintro q e ⟨⟩

/-- So does a whole session. -/
theorem printed_run (hs : s.resolver.provider = o) (steps : List SessionStep) :
    Printed s.store.log (s.run Engine.serve steps).2.store.log ∧
      List.Forall₂ SessionStep.Reports steps (s.run Engine.serve steps).1 := by
  induction steps generalizing s with
  | nil => exact ⟨.refl _, .nil⟩
  | cons a rest ih =>
    obtain ⟨hstep, hanswer⟩ := printed_step hs a
    obtain ⟨hrest, hanswers⟩ := ih ((s.provider_step a).trans hs)
    exact ⟨hstep.trans hrest, .cons hanswer hanswers⟩

/-- Every line that the logger is told is printable, and so are the message and the source of every
report of content that cannot be used. It is so in every session of an engine with an overlay,
whatever it starts with, but for the errors that the host's own shapes end with; in all that an
overlay does; and in every run of a cache with any number of calls, for the errors that it hands out
of those that are printable. -/
theorem diagnostics_printable {K V : Type} [DecidableEq K] {s : Session (Cache CacheKey Slot)}
    {o : Overlay} (hs : s.resolver.provider = o) (steps : List SessionStep)
    (values config : Slot) (exempt : List String) (source : Value) (shape : Shape) (now : Moment)
    (moves : List (Move K V)) :
    (Printed s.store.log (s.run Engine.serve steps).2.store.log ∧
      List.Forall₂ SessionStep.Reports steps (s.run Engine.serve steps).1) ∧
    ((Overlay.ofValues values exempt).Prints (fun _ => False) ∧
      (Overlay.ofConfig values source).Prints (fun _ => False) ∧
      (o.mergeMap config).Prints (fun _ => False) ∧
      (o.mergeObject config shape).Prints (· ∈ shape.rejection?)) ∧
    ((∀ move ∈ moves, move.Prints) → (moves.foldl Delivery.step (Delivery.start now)).Prints) :=
  ⟨printed_run hs steps,
    ⟨Overlay.prints_ofValues values exempt, Overlay.prints_ofConfig values source,
      o.prints_mergeMap config, o.prints_mergeObject config shape⟩,
    (Delivery.prints_start now).run⟩

end Session

namespace ForgedName

/-- A file with a line break in its name, which holds no JSON. -/
def files : FileTree := ⟨[(["d"], .folder), (["d", "x\n.json"], .file [0x5b])], []⟩

/-- A session with that file. -/
def session : Session (Cache CacheKey Slot) :=
  .opened LaterExtension.search ⟨.nothing, .empty⟩ ⟨files, .inMay 0 12 0⟩

/-- The config in the file is asked for. -/
def steps : List SessionStep := [.ask (.get (.map "x\n" ""))]

/-- The message and the source of a report. -/
def report? : Option (Except Failure Reply) → Option (String × String)
  | some (.error (.malformed m)) => some (m.message, m.source)
  | _ => none

/-- What the report is while the source is not known. -/
def unplaced : Malformed := ⟨.json .noValue 1 2, "x\\n.json", "x\\n.json"⟩

/-- The report is made, and gets its source. -/
def moves : List (Move String Nat) := [.make (.malformed unplaced), .mark 0 "/d/x\\n.json"]

/-- The line break is spelled in the report, whose error stays printable as it gets its source, and
every line of the session is printable. -/
theorem name_escaped :
    (session.run Engine.serve steps).1.map report? =
      [some ("Error parsing JSON: x\\n.json: line 1, column 2: Expecting value",
        "/d/x\\n.json")] ∧
    Printed [] (session.run Engine.serve steps).2.store.log ∧
    (moves.foldl Delivery.step (Delivery.start (.inMay 0 12 0))).Prints := by
  have hname : Text.Printable "x\\n.json" := printable_of_all (by decide)
  have hmoves : ∀ move ∈ moves, move.Prints := by
    refine List.forall_mem_cons.mpr ⟨⟨?_, hname⟩, List.forall_mem_singleton.mpr ?_⟩
    · exact ContentFault.printable_message hname fun kind hkind => by cases hkind
    · exact printable_of_all (by decide)
  obtain ⟨⟨hlog, -⟩, -, hcache⟩ := Session.diagnostics_printable (s := session)
    (o := .nothing) rfl steps (.atom .null) (.atom .null) [] (.atom .null) .mapping (.inMay 0 12 0)
    moves
  exact ⟨by decide +kernel, hlog, hcache hmoves⟩

end ForgedName
end Stratum
