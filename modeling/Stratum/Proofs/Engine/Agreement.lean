import Stratum.Proofs.Cache.Operations
import Stratum.Proofs.Engine.Acts

/-!
# An engine answers as the table does

The cache of an engine agrees with a table if no computation is under way, the same answers stand
under the same keys, and the deadline is the next midnight after the last emptying. Every request
keeps them in agreement and gets the same answer of both (`Agrees.serve`), so every session does
(`Agrees.run`).
-/

namespace Stratum

/-- The row of a cache key. -/
def CacheKey.row : CacheKey → Row
  | .string filename hint => ⟨.string, filename, none, hint⟩
  | .map name hint => ⟨.map, name, none, hint⟩
  | .object name shape hint => ⟨.object, name, some shape, hint⟩

/-- Different keys have different rows. -/
theorem CacheKey.row_injective : Function.Injective CacheKey.row := by
  intro j k h
  cases j <;> cases k <;> simp_all [row]

/-- A cache agrees with a table. -/
structure Agrees (c : Cache CacheKey Slot) (t : Table) : Prop where
  /-- Between two requests no computation is under way. -/
  idle : c.flights = []
  /-- The same answers stand under the same keys. -/
  rows : ∀ key : CacheKey, c.entries.lookup key = t.rows key.row
  /-- The deadline is the next midnight after the last emptying. -/
  deadline : c.deadline = t.emptied.bind Moment.nextMidnight?
  /-- The table was not emptied on the last day. -/
  dated : ∀ emptied ∈ t.emptied, ¬ emptied.date.IsLast

namespace Agrees

variable {c : Cache CacheKey Slot} {t : Table} {now : Moment}

/-- A new cache agrees with a new table. -/
theorem new : Agrees .empty .new :=
  ⟨rfl, fun _ => rfl, rfl, fun e he => absurd he (Option.not_mem_none e)⟩

/-- A cleared cache agrees with an emptied table. -/
theorem emptied (c : Cache CacheKey Slot) (hnow : ¬ now.date.IsLast) :
    Agrees (c.clear now).1 (.emptiedAt now) := by
  obtain ⟨midnight, hm⟩ := Moment.exists_nextMidnight? hnow
  rw [Cache.clear_fst]
  refine ⟨rfl, fun _ => rfl, ?_, ?_⟩
  · simp [Table.emptiedAt, hm]
  · intro e he
    obtain rfl := Option.some.inj he
    exact hnow

/-- A cache is expired exactly if the table is stale. -/
theorem isExpired (h : Agrees c t) (now : Moment) : c.isExpired now = t.isStale now := by
  unfold Cache.isExpired Table.isStale
  rw [h.deadline]
  cases he : t.emptied with
  | none => rfl
  | some e =>
    obtain ⟨midnight, hm⟩ := Moment.exists_nextMidnight? (h.dated e he)
    obtain ⟨hi, ho⟩ := Moment.instant_nextMidnight? hm
    have hc : now.comparable midnight = now.comparable e := by simp [Moment.comparable, ho]
    -- Past the deadline means later than the first midnight, at whatever offset both stand.
    have hl : (!now.le midnight) = decide (e.firstMidnight < now.instant) := by
      simp [Moment.le, hi, ← decide_not]
    simp only [Option.bind_some, hm, hc, hl]

/-- A look-up gives the answer in the row, or else what is computed, which is kept if it is a
value. -/
theorem lookUp (h : Agrees c t) (key : CacheKey) (find : Act (Option Slot)) (store : Store) :
    ∃ c', (match c.lookup key with
        | (.hit v, c) => (.ok (some v), ⟨c, store⟩)
        | (.joined _, c) => (.error .blocked, ⟨c, store⟩)
        | (.started flight generation, c) => match find.run.run store with
          | (.ok v, store) => (.ok v, ⟨c.land key flight generation v, store⟩)
          | (.error e, store) => (.error e, ⟨c.land key flight generation none, store⟩)) =
        ((t.lookUp key.row find store).1, (⟨c', (t.lookUp key.row find store).2.2⟩ : EngineState)) ∧
      Agrees c' (t.lookUp key.row find store).2.1 := by
  have hrow := h.rows key
  unfold Table.lookUp
  obtain ⟨v, he, hl⟩ | ⟨f, -, hf, -⟩ | ⟨he, -, hl⟩ := c.lookup_cases key
  · rw [hl, ← hrow, he]
    exact ⟨c, rfl, h⟩
  · rw [h.idle] at hf
    cases hf
  · -- The flight that starts is the only one, and its landing takes it away.
    have hidle : ∀ v, (Cache.land { c with
        flights := (key, c.begun) :: c.flights, begun := c.begun + 1 }
        key c.begun c.generation v).flights = [] := by
      intro v
      simp [Cache.land, h.idle]
    rw [hl, ← hrow, he]
    dsimp only
    rcases find.run.run store with ⟨e | _ | v, store⟩
    · exact ⟨_, rfl, hidle none, h.rows, h.deadline, h.dated⟩
    · exact ⟨_, rfl, hidle none, h.rows, h.deadline, h.dated⟩
    · refine ⟨_, rfl, hidle (some v), fun j => ?_, h.deadline, h.dated⟩
      rw [Cache.entries_land rfl, Cache.lookup_putEntry]
      simp only [Table.put, CacheKey.row_injective.eq_iff, h.rows]

/-- A getter of an engine answers as the table does. -/
theorem fetch (h : Agrees c t) (hnow : ¬ now.date.IsLast) (key : CacheKey)
    (find : Act (Option Slot)) (store : Store) :
    ∃ c', (EngineAct.fetch now key find).run.run ⟨c, store⟩ =
        ((t.fetch now key.row find store).1, ⟨c', (t.fetch now key.row find store).2.2⟩) ∧
      Agrees c' (t.fetch now key.row find store).2.1 := by
  have hexp := h.isExpired now
  rw [EngineAct.run_fetch, EngineAct.run_refresh]
  unfold Table.fetch Cache.refresh
  dsimp only
  rw [hexp]
  rcases t.isStale now with fault | _ | _
  · exact ⟨c, rfl, h⟩
  · exact h.lookUp key find store
  · obtain ⟨midnight, hm⟩ := Moment.exists_nextMidnight? hnow
    have hclear : c.clear now = ((c.clear now).1, none) := Prod.ext rfl (Cache.clear_snd hm)
    have := (emptied c hnow).lookUp key find (store.say Cache.refreshLine)
    dsimp only
    rw [hclear]
    exact this

end Agrees

/-! ## Requests -/

/-- The cache key of a getter. -/
def Getter.key : Getter → CacheKey
  | .string filename hint => .string filename hint
  | .map name hint => .map name hint
  | .object name shape hint => .object name shape.id hint

/-- The key of a getter belongs to its row. -/
theorem Getter.row_key (g : Getter) : g.key.row = g.row := by
  cases g <;> rfl

/-- Every getter fetches under its key what is found in the files. -/
theorem Getter.ask_eq (w : Surroundings) (r : Resolver) (g : Getter) :
    g.ask w r = EngineAct.fetch w.now g.key (g.resolve w.files r) := by
  cases g <;> rfl

/-- A request past the cache leaves it as it is and answers from the files. -/
theorem Probe.ask_eq (w : Surroundings) (r : Resolver) (p : Probe) :
    p.ask w r = EngineAct.ofAct (p.resolve w.files r) := by
  cases p with
  | mapNoCache name hint => exact EngineAct.ofAct_bind_pure _ Reply.slot
  | stream filename hint => exact EngineAct.ofAct_bind_pure _ Reply.stream
  | resolveString filename hint => rfl
  | resolveMap name hint => rfl
  | resolveObject name shape hint => rfl
  | locate filename hint => rfl

/-- An engine's answer to a request, with what it keeps. -/
theorem Engine.serve_eq (q : Request) (s : Session (Cache CacheKey Slot)) :
    Engine.serve q s = (((q.ask s.world s.resolver).run.run ⟨s.kept, s.store⟩).1, { s with
      kept := ((q.ask s.world s.resolver).run.run ⟨s.kept, s.store⟩).2.cache
      store := ((q.ask s.world s.resolver).run.run ⟨s.kept, s.store⟩).2.store }) := rfl

/-- An engine answers a request past the cache from the files, and changes the store only. -/
theorem Engine.serve_probe (p : Probe) (s : Session (Cache CacheKey Slot)) :
    Engine.serve (.probe p) s = (((p.resolve s.world.files s.resolver).run.run s.store).1, { s with
      store := ((p.resolve s.world.files s.resolver).run.run s.store).2 }) := by
  rw [serve_eq, Request.ask, p.ask_eq, EngineAct.run_ofAct]

/-- A session of an engine agrees with one of a table if all but what they keep is the same. -/
structure Session.Agrees (s : Session (Cache CacheKey Slot)) (t : Session Table) : Prop where
  kept : Stratum.Agrees s.kept t.kept
  resolver : s.resolver = t.resolver
  store : s.store = t.store
  world : s.world = t.world

namespace Session.Agrees

variable {s : Session (Cache CacheKey Slot)} {t : Session Table}

/-- An engine and a table that agree give the same answer to a request, and agree after it. -/
theorem serve (h : Agrees s t) (hnow : ¬ t.world.now.date.IsLast) (q : Request) :
    (Engine.serve q s).1 = (Table.serve q t).1 ∧
      Agrees (Engine.serve q s).2 (Table.serve q t).2 := by
  obtain ⟨r, c, store, w⟩ := s
  obtain ⟨r', k, store', w'⟩ := t
  obtain ⟨hk, hr, hs, hw⟩ := h
  dsimp only at hk hr hs hw hnow
  subst hr hs hw
  -- Only the getters and the clear come to the cache, and there the table does the same.
  cases q with
  | get g =>
    obtain ⟨c', hrun, hc'⟩ := hk.fetch hnow g.key (g.resolve w.files r) store
    rw [g.row_key] at hrun hc'
    rw [Engine.serve_eq, Request.ask, Act.run_bind, g.ask_eq]
    dsimp only [Table.serve]
    rw [hrun]
    generalize k.fetch w.now g.row (g.resolve w.files r) store = outcome at hc' ⊢
    obtain ⟨e | a, k', store'⟩ := outcome
    · exact ⟨rfl, hc', rfl, rfl, rfl⟩
    · exact ⟨rfl, hc', rfl, rfl, rfl⟩
  | probe p =>
    rw [Engine.serve_probe]
    exact ⟨rfl, hk, rfl, rfl, rfl⟩
  | clear =>
    obtain ⟨midnight, hm⟩ := Moment.exists_nextMidnight? hnow
    have hclear : c.clear w.now = ((c.clear w.now).1, none) := Prod.ext rfl (Cache.clear_snd hm)
    rw [Engine.serve_eq, Request.ask, Act.run_bind, EngineAct.run_clear]
    dsimp only
    rw [hclear]
    exact ⟨rfl, Stratum.Agrees.emptied c hnow, rfl, rfl, rfl⟩

/-- A change of what is around an engine keeps the agreement, and so does a request. -/
theorem step (h : Agrees s t) (hnow : ¬ t.world.now.date.IsLast) (a : SessionStep) :
    (s.step Engine.serve a).1 = (t.step Table.serve a).1 ∧
      Agrees (s.step Engine.serve a).2 (t.step Table.serve a).2 := by
  cases a with
  | ask q =>
    obtain ⟨ha, hs⟩ := h.serve hnow q
    exact ⟨congrArg some ha, hs⟩
  | files files => exact ⟨rfl, h.kept, h.resolver, h.store, by simp only [Session.step, h.world]⟩
  | resources files =>
    exact ⟨rfl, h.kept, by simp only [Session.step, h.resolver], h.store, h.world⟩
  | clock now => exact ⟨rfl, h.kept, h.resolver, h.store, by simp only [Session.step, h.world]⟩

end Session.Agrees

/-- A request does not move the clock. -/
theorem Table.world_serve (q : Request) (t : Session Table) :
    (Table.serve q t).2.world = t.world := by
  cases q <;> rfl

/-- The clock after a step is one that was told or the one before. -/
theorem Session.now_step (t : Session Table) (a : SessionStep) :
    a = .clock (t.step Table.serve a).2.world.now ∨
      (t.step Table.serve a).2.world.now = t.world.now := by
  cases a with
  | ask q => exact .inr (congrArg Surroundings.now (Table.world_serve q t))
  | files files => exact .inr rfl
  | resources files => exact .inr rfl
  | clock now => exact .inl rfl

/-- Sessions that agree give the same answers step by step, and agree at the end. -/
theorem Session.Agrees.run {s : Session (Cache CacheKey Slot)} {t : Session Table}
    (h : Agrees s t) (hnow : ¬ t.world.now.date.IsLast) (steps : List SessionStep)
    (hsteps : ∀ now, .clock now ∈ steps → ¬ now.date.IsLast) :
    (s.run Engine.serve steps).1 = (t.run Table.serve steps).1 ∧
      Agrees (s.run Engine.serve steps).2 (t.run Table.serve steps).2 := by
  induction steps generalizing s t with
  | nil => exact ⟨rfl, h⟩
  | cons a rest ih =>
    obtain ⟨ha, hs⟩ := h.step hnow a
    -- The rest of the session starts on a day with a next one again.
    have hnow' : ¬ (t.step Table.serve a).2.world.now.date.IsLast := by
      rcases t.now_step a with hc | hc
      · exact hsteps _ (List.mem_cons.mpr (.inl hc.symm))
      · rw [hc]
        exact hnow
    obtain ⟨hrest, hend⟩ := ih hs hnow' fun now hin => hsteps now (List.mem_cons_of_mem _ hin)
    exact ⟨by simp only [Session.run, ha, hrest], hend⟩

/-- An engine answers every session as a table does that starts out new, whoever lays values over
the configs. The engine's cache is left alone by whoever asks past it, and such a request is
answered from the files as they are. -/
theorem Engine.run_eq_table (r : Resolver) (store : Store) (w : Surroundings)
    (steps : List SessionStep) (hnow : ¬ w.now.date.IsLast)
    (hsteps : ∀ now, .clock now ∈ steps → ¬ now.date.IsLast) :
    (Session.run Engine.serve ⟨r, .empty, store, w⟩ steps).1 =
        (Session.run Table.serve ⟨r, .new, store, w⟩ steps).1 ∧
      (Session.run Engine.serve ⟨r, .empty, store, w⟩ steps).2.store =
        (Session.run Table.serve ⟨r, .new, store, w⟩ steps).2.store ∧
      ∀ (s : Session (Cache CacheKey Slot)) (p : Probe),
        (Engine.serve (.probe p) s).1 = ((p.resolve s.world.files s.resolver).run.run s.store).1 ∧
          (Engine.serve (.probe p) s).2.kept = s.kept := by
  have h : Session.Agrees ⟨r, .empty, store, w⟩ ⟨r, .new, store, w⟩ := ⟨.new, rfl, rfl, rfl⟩
  obtain ⟨hanswers, hend⟩ := h.run hnow steps hsteps
  refine ⟨hanswers, hend.store, fun s p => ?_⟩
  rw [Engine.serve_probe]
  exact ⟨rfl, rfl⟩

namespace MaySession

/-- A file system with a file of one byte. -/
def files (byte : UInt8) : FileTree := ⟨[(["c"], .folder), (["c", "a"], .file [byte])], []⟩

/-- The file changes after it was asked for, and is asked for again: at once, at midnight, and after
midnight. -/
def steps : List SessionStep := [
  .ask (.get (.string "a" "")), .files (files 66), .ask (.get (.string "a" "")),
  .ask (.probe (.resolveString "a" "")), .clock (.inMay 1 0 0),
  .ask (.get (.string "a" "")), .clock (.inMay 1 0 1), .ask (.get (.string "a" ""))]

/-- Noon of the first of May, with a file that holds an A. -/
def noon : Surroundings := ⟨files 65, .inMay 0 12 0⟩

/-- One directory to look into, and nothing laid over. -/
def resolver : Resolver := ⟨⟨["/c"], none⟩, Overlay.nothing⟩

/-- The first answer stays until midnight is over, while whoever asks past the cache gets the new
one. -/
theorem answers_over_midnight :
    ¬ noon.now.date.IsLast ∧ (∀ now, .clock now ∈ steps → ¬ now.date.IsLast) ∧
      (Session.run Engine.serve ⟨resolver, .empty, .empty, noon⟩ steps).1 = [
        some (.ok (.slot (some (.atom (.text "A"))))), none,
        some (.ok (.slot (some (.atom (.text "A"))))), some (.ok (.text (some "B"))), none,
        some (.ok (.slot (some (.atom (.text "A"))))), none,
        some (.ok (.slot (some (.atom (.text "B")))))] := by
  have hnow : ¬ noon.now.date.IsLast := by decide
  have hsteps : ∀ now, .clock now ∈ steps → ¬ now.date.IsLast := by
    intro now h
    simp only [steps, List.mem_cons, SessionStep.clock.injEq, reduceCtorEq, List.not_mem_nil,
      or_false, false_or] at h
    rcases h with rfl | rfl <;> decide
  refine ⟨hnow, hsteps, ?_⟩
  exact (Engine.run_eq_table resolver .empty noon steps hnow hsteps).1.trans rfl

end MaySession
end Stratum
