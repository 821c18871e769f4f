import Stratum.Proofs.Cache.Fetch
import Stratum.Proofs.Engine.Agreement
import Stratum.Proofs.Engine.Reading

/-!
# The ledger

What an engine answers, without any objects: a cache of values, and a getter that finds values in
the files. Read off, a session of an engine is a ledger, and answers as one (`Session.Sound.serve`).
-/

namespace Stratum

/-! ## Ledgers -/

/-- Where to look, what to lay over what is found, the values that are kept, and what is around. -/
structure Ledger where
  search : Search
  managed : Managed
  cache : Cache CacheKey Value
  world : Surroundings

namespace Ledger

/-- The answer to a request with the lines that are told, and the ledger after it. -/
def serve (l : Ledger) : Request → (Except Failure Reading × List Line) × Ledger
  | .get g =>
    let ((found, told), cache) :=
      l.cache.fetch l.world.now g.key (g.reading l.managed l.search l.world.files)
    ((found.map .value, told), { l with cache })
  | .probe p => (p.reading l.managed l.search l.world.files, l)
  | .clear =>
    match l.cache.clear l.world.now with
    | (cache, some fault) => ((.error fault.failure, []), { l with cache })
    | (cache, none) => ((.ok .cleared, [Cache.clearLine]), { l with cache })

/-- A step of a session. -/
def step (l : Ledger) : SessionStep → Ledger
  | .ask q => (l.serve q).2
  | .files t => { l with world := { l.world with files := t } }
  | .resources files =>
    { l with search := { l.search with bundle := l.search.bundle.map (.withResources files) } }
  | .clock now => { l with world := { l.world with now } }

/-- The steps of a session in order. -/
def run (l : Ledger) (steps : List SessionStep) : Ledger := steps.foldl step l

/-- The managed values of a ledger stay what they are. -/
theorem managed_step (l : Ledger) (a : SessionStep) : (l.step a).managed = l.managed := by
  rcases a with (g | p | _) | t | files | now
  · rfl
  · rfl
  · dsimp only [step, serve]
    rcases l.cache.clear l.world.now with ⟨c, _ | fault⟩ <;> rfl
  · rfl
  · rfl
  · rfl

end Ledger

/-! ## Sessions read off -/

namespace Session

/-- A session of an engine with a new cache, on a ground. -/
def opened (s : Search) (k : Ground) (w : Surroundings) : Session (Cache CacheKey Slot) :=
  ⟨⟨s, k.overlay⟩, .empty, k.store, w⟩

/-- The answer to a request, read off, with the lines that are told. -/
def reads (q : Request) (s : Session (Cache CacheKey Slot)) : Except Failure Reading × List Line :=
  let (answer, s') := Engine.serve q s
  (answer.map (Reply.read s'.store.heap), s'.store.log.drop s.store.log.length)

/-- A session read off, under managed values. -/
def ledger (m : Managed) (s : Session (Cache CacheKey Slot)) : Ledger :=
  ⟨s.resolver.search, m, s.kept.map s.store.heap.view, s.world⟩

/-- A session has a provider of managed values, and what it keeps stands in domains. -/
structure Sound (m : Managed) (o : Overlay) (s : Session (Cache CacheKey Slot)) : Prop where
  provider : s.resolver.provider = o
  holds : Ground.Holds m ⟨o, s.store⟩
  kept : ∀ e ∈ s.kept.entries, ∃ A, s.store.heap.IsDomain A ∧ e.2.In A

end Session

/-- What is told makes no difference to the values that a provider has. -/
theorem Ground.Holds.told {m : Managed} {o : Overlay} {st : Store} (hg : Holds m ⟨o, st⟩)
    (log : List Line) : Holds m ⟨o, { st with log }⟩ := by
  cases hg with
  | nothing => exact .nothing _
  | values domain within mirrors moved => exact .values domain within mirrors moved

/-- A provider keeps its values while cells are made. -/
theorem Ground.Holds.grown {m : Managed} {o : Overlay} {st st' : Store} {R : Set Addr}
    (hg : Holds m ⟨o, st⟩) (hgrown : Heap.Grown st.heap st'.heap ∅ R) : Holds m ⟨o, st'⟩ := by
  cases hg with
  | nothing => exact .nothing st'
  | values domain within mirrors moved =>
    refine .values (hgrown.isDomain domain) within (mirrors.congr fun addr haddr => ?_) moved
    exact hgrown.get?_eq addr (domain.lt_size addr haddr)

/-- What a refresh leaves of the entries was there before. -/
theorem Cache.mem_entries_refresh {K V : Type} {c : Cache K V} {now : Moment} {e : K × V}
    (he : e ∈ (c.refresh now).1.entries) : e ∈ c.entries := by
  by_cases hexpired : c.isExpired now = .ok true
  · rw [refresh_fst hexpired, clear_fst] at he
    cases he
  · rwa [refresh_fst_of_ne hexpired] at he

/-- What a cache keeps is read off as before while cells are made. -/
theorem Cache.map_view_grown {K : Type} {c : Cache K Slot} {h h' : Heap} {R R' : Set Addr}
    (hgrown : h.Grown h' R R') (hc : ∀ e ∈ c.entries, ∃ A, h.IsDomain A ∧ e.2.In A) :
    c.map h'.view = c.map h.view := by
  refine map_congr fun e he => ?_
  obtain ⟨A, hA, hin⟩ := hc e he
  exact hgrown.view_eq hA hin

/-- What is put under a key stands there. -/
theorem Cache.mem_putEntry_self {K V : Type} [DecidableEq K] (k : K) (v : V) (es : List (K × V)) :
    (k, v) ∈ putEntry k v es :=
  mem_of_lookup (by rw [lookup_putEntry, if_pos rfl])

namespace Getter

variable {m : Managed} {o : Overlay} {g : Getter} {t : FileTree} {r : Resolver}
  {c : Cache CacheKey Slot} {st : Store} {a : Except Failure (Option Slot)} {s : EngineState}

/-- What a getter comes to, read off: the answer and the lines that are told. -/
def readOff (a : Except Failure (Option Slot)) (st st' : Store) :
    Except Failure (Option Value) × List Line :=
  (a.map (Option.map st'.heap.view), st'.log.drop st.log.length)

/-- What a getter leaves of an engine after the refresh: no cell is changed that was there, lines
are told behind those before, the generation goes on, and what is kept was kept before or is the
answer, which leads to new cells then. -/
structure Leaves (g : Getter) (c : Cache CacheKey Slot) (st : Store)
    (a : Except Failure (Option Slot)) (s : EngineState) : Prop where
  grown : ∃ R, Heap.Grown st.heap s.store.heap ∅ R ∧
    ∀ e ∈ s.cache.entries, e ∈ c.entries ∨ e.1 = g.key ∧ a = .ok (some e.2) ∧ e.2.In R
  told : ∃ lines, s.store.log = st.log ++ lines
  generation : s.cache.generation = c.generation
  keeps : ∀ v, a = .ok (some v) → (g.key, v) ∈ s.cache.entries

/-- A getter that makes and tells nothing leaves all as it is, if its answer is kept already. -/
theorem leaves_same (c : Cache CacheKey Slot) (st : Store)
    (h : ∀ v, a = .ok (some v) → (g.key, v) ∈ c.entries) : g.Leaves c st a ⟨c, st⟩ :=
  ⟨⟨∅, st.heap.isDomain_empty.grown, fun _ => .inl⟩, ⟨[], (List.append_nil _).symm⟩, rfl, h⟩

/-- A getter that lands what it found in the files keeps that beside what was kept. -/
theorem leaves_land {R : Set Addr} {st' : Store} {flights : List (CacheKey × Nat)}
    (hgrown : Heap.Grown st.heap st'.heap ∅ R) (hin : ∀ v, a = .ok (some v) → v.In R)
    (hlog : ∃ lines, st'.log = st.log ++ lines) (flight begun : Nat) :
    g.Leaves c st a
      ⟨{ c with flights, begun }.land g.key flight c.generation a.toOption.join, st'⟩ := by
  rcases a with e | _ | v
  · exact ⟨⟨R, hgrown, fun _ => .inl⟩, hlog, rfl, fun _ h => by cases h⟩
  · exact ⟨⟨R, hgrown, fun _ => .inl⟩, hlog, rfl, fun _ h => by cases h⟩
  · have hentries : ({ c with flights, begun }.land g.key flight c.generation (some v)).entries =
        Cache.putEntry g.key v c.entries := Cache.entries_land rfl
    refine ⟨⟨R, hgrown, fun e he => ?_⟩, hlog, rfl, ?_⟩
    · rcases Cache.mem_putEntry (hentries ▸ he) with ⟨hkey, rfl⟩ | he
      · exact .inr ⟨hkey, rfl, hin _ rfl⟩
      · exact .inl he
    · rintro w ⟨⟩
      exact hentries ▸ Cache.mem_putEntry_self g.key v c.entries

/-- A getter that finds its key in the cache or looks at the files, read off, answers as a cache of
values does. -/
theorem answer_eq (hr : r.provider = o) (hk : Ground.Holds m ⟨o, st⟩)
    (hc : ∀ e ∈ c.entries, ∃ A, st.heap.IsDomain A ∧ e.2.In A)
    (hrun : (match c.lookup g.key with
      | (.hit v, c) => (.ok (some v), ⟨c, st⟩)
      | (.joined _, c) => (.error .blocked, ⟨c, st⟩)
      | (.started flight generation, c) => match (g.resolve t r).run.run st with
        | (.ok v, store) => (.ok v, ⟨c.land g.key flight generation v, store⟩)
        | (.error e, store) => (.error e, ⟨c.land g.key flight generation none, store⟩)) = (a, s)) :
    (c.map st.heap.view).answer g.key (g.reading m r.search t) =
        (readOff a st s.store, s.cache.map s.store.heap.view) ∧ g.Leaves c st a s := by
  unfold Cache.answer
  rw [Cache.lookup_map]
  -- The key is in the cache, or being computed, or the files are looked at and the value lands.
  obtain ⟨v, hentry, hlookup⟩ | ⟨f, -, -, hlookup⟩ | ⟨hentry, -, hlookup⟩ := c.lookup_cases g.key
  · rw [hlookup] at hrun ⊢
    obtain ⟨rfl, rfl⟩ := Prod.mk.inj hrun
    refine ⟨by simp [readOff, Lookup.map, Except.map], leaves_same c st ?_⟩
    rintro w ⟨⟩
    exact Cache.mem_of_lookup hentry
  · rw [hlookup] at hrun ⊢
    obtain ⟨rfl, rfl⟩ := Prod.mk.inj hrun
    refine ⟨by simp [readOff, Lookup.map, Except.map], leaves_same c st ?_⟩
    rintro w ⟨⟩
  · obtain ⟨R, hgrown, hin⟩ := g.makes_resolve (t := t) hr st
    obtain ⟨search, _⟩ := r
    obtain rfl := hr
    have hreading := g.reading_eq (s := search) (t := t) hk
    have hlog := (g.anew_resolve (s := search) (t := t)
      fun name _ => Overlay.anew_overlaid m name).log_append hk
    rcases hcompute : (g.resolve t ⟨search, o⟩).run.run st with ⟨found, st₁⟩
    unfold Act.reading at hreading
    rw [hcompute] at hreading hgrown hin hlog
    dsimp only at hreading hgrown hin hlog
    set c' : Cache CacheKey Slot :=
      { c with flights := (g.key, c.begun) :: c.flights, begun := c.begun + 1 }
    have hviews : c'.map st₁.heap.view = c'.map st.heap.view := Cache.map_view_grown hgrown hc
    have hland : (a, s) =
        (found, ⟨c'.land g.key c.begun c.generation found.toOption.join, st₁⟩) := by
      rw [← hrun, hlookup, hcompute]
      rcases found with e | v <;> rfl
    obtain ⟨rfl, rfl⟩ := Prod.mk.inj hland
    refine ⟨?_, leaves_land hgrown (fun v hv => hin _ hv v List.mem_cons_self) hlog _ _⟩
    rw [hlookup]
    dsimp only [Lookup.map]
    rw [← hreading, ← hviews, ← Cache.land_map]
    rcases a with e | v <;> rfl

/-- A getter of an engine, read off, answers as one of a cache of values does. -/
theorem fetch_eq {now : Moment} (hr : r.provider = o) (hk : Ground.Holds m ⟨o, st⟩)
    (hc : ∀ e ∈ c.entries, ∃ A, st.heap.IsDomain A ∧ e.2.In A)
    (hrun : (EngineAct.fetch now g.key (g.resolve t r)).run.run ⟨c, st⟩ = (a, s)) :
    (c.map st.heap.view).fetch now g.key (g.reading m r.search t) =
        (readOff a st s.store, s.cache.map s.store.heap.view) ∧
      g.Leaves (c.refresh now).1 st a s := by
  have hsub : ∀ e ∈ (c.refresh now).1.entries, e ∈ c.entries := fun e => Cache.mem_entries_refresh
  rw [EngineAct.run_fetch, EngineAct.run_refresh] at hrun
  unfold Cache.fetch
  rw [Cache.refresh_map]
  rcases hrefresh : c.refresh now with ⟨c₁, fault | cleared⟩
  · rw [hrefresh] at hrun
    obtain ⟨rfl, rfl⟩ := Prod.mk.inj hrun
    refine ⟨by simp [readOff, Except.map], leaves_same c₁ st ?_⟩
    rintro v ⟨⟩
  · rw [hrefresh] at hrun hsub
    dsimp only at hrun hsub ⊢
    -- The line about the refresh comes first and changes nothing else.
    obtain ⟨told, htold, hst⟩ : ∃ told, (if cleared then [Cache.refreshLine] else []) = told ∧
        (if cleared then st.say Cache.refreshLine else st) = { st with log := st.log ++ told } := by
      cases cleared
      · exact ⟨[], rfl, by simp⟩
      · exact ⟨_, rfl, rfl⟩
    rw [hst] at hrun
    rw [htold]
    obtain ⟨hanswer, hgrown, ⟨lines, hlines⟩, hgeneration, hkeeps⟩ :=
      answer_eq hr (hk.told (st.log ++ told)) (fun e he => hc e (hsub e he)) hrun
    dsimp only at hanswer hlines
    refine ⟨?_, hgrown, ⟨told ++ lines, by rw [hlines, List.append_assoc]⟩, hgeneration,
      hkeeps⟩
    rw [hanswer]
    simp [readOff, hlines]

end Getter

/-! ## Sessions -/

/-- An engine answers a getter by fetching under its key. -/
theorem Engine.serve_get (g : Getter) (s : Session (Cache CacheKey Slot)) :
    Engine.serve (.get g) s =
      let run := (EngineAct.fetch s.world.now g.key (g.resolve s.world.files s.resolver)).run.run
        ⟨s.kept, s.store⟩
      (run.1.map .slot, { s with kept := run.2.cache, store := run.2.store }) := by
  rw [serve_eq, Request.ask, Act.run_bind, g.ask_eq]
  dsimp only
  rcases (EngineAct.fetch s.world.now g.key (g.resolve s.world.files s.resolver)).run.run
    ⟨s.kept, s.store⟩ with ⟨e | a, st⟩ <;> rfl

/-- An engine clears its cache and says so, unless the clock stands on the last day. -/
theorem Engine.serve_clear (s : Session (Cache CacheKey Slot)) :
    Engine.serve .clear s = match s.kept.clear s.world.now with
      | (kept, some fault) => (.error fault.failure, { s with kept })
      | (kept, none) => (.ok .cleared, { s with kept, store := s.store.say Cache.clearLine }) := by
  rw [serve_eq, Request.ask, Act.run_bind, EngineAct.run_clear]
  rcases s.kept.clear s.world.now with ⟨kept, _ | fault⟩ <;> rfl

namespace Session

variable {m : Managed} {o : Overlay} {s : Session (Cache CacheKey Slot)}

/-- A session after which no cell is changed keeps what it had, if what it keeps now was kept before
or leads to new cells. -/
theorem Sound.grown (hs : s.Sound m o) {s' : Session (Cache CacheKey Slot)}
    (hprovider : s'.resolver.provider = s.resolver.provider) {R : Set Addr}
    (hgrown : Heap.Grown s.store.heap s'.store.heap ∅ R)
    (hkept : ∀ e ∈ s'.kept.entries, e ∈ s.kept.entries ∨ e.2.In R) : s'.Sound m o := by
  refine ⟨hprovider.trans hs.provider, hs.holds.grown hgrown, fun e he => ?_⟩
  rcases hkept e he with he | hin
  · obtain ⟨A, hA, hin⟩ := hs.kept e he
    exact ⟨A, hgrown.isDomain hA, hin⟩
  · exact ⟨R, hgrown.domain, hin⟩

/-- A new session is sound. -/
theorem sound_opened {k : Ground} (hk : k.Holds m) (s : Search)
    (w : Surroundings) : (opened s k w).Sound m k.overlay :=
  ⟨rfl, hk, fun _ he => absurd he List.not_mem_nil⟩

/-- A session that is read off answers a getter as its ledger does. -/
theorem Sound.serve_get (hs : s.Sound m o) (g : Getter) :
    (s.ledger m).serve (.get g) = (s.reads (.get g), (Engine.serve (.get g) s).2.ledger m) ∧
      (Engine.serve (.get g) s).2.Sound m o := by
  rcases hrun : (EngineAct.fetch s.world.now g.key
    (g.resolve s.world.files s.resolver)).run.run ⟨s.kept, s.store⟩ with ⟨a, st⟩
  obtain ⟨hfetch, ⟨R, hgrown, hkept⟩, -, -, -⟩ := Getter.fetch_eq hs.provider hs.holds hs.kept hrun
  have hserve := Engine.serve_get g s
  rw [hrun] at hserve
  dsimp only at hserve
  constructor
  · unfold Ledger.serve reads
    rw [hserve]
    dsimp only [ledger]
    rw [hfetch]
    rcases a with e | found <;> rfl
  · rw [hserve]
    refine hs.grown rfl hgrown fun e he => ?_
    exact (hkept e he).imp Cache.mem_entries_refresh fun h => h.2.2

/-- So it does a request past the cache. -/
theorem Sound.serve_probe (hs : s.Sound m o) (p : Probe) :
    (s.ledger m).serve (.probe p) = (s.reads (.probe p), (Engine.serve (.probe p) s).2.ledger m) ∧
      (Engine.serve (.probe p) s).2.Sound m o := by
  have hreading := p.reading_eq (s := s.resolver.search) (t := s.world.files) hs.holds
  have hresolver : s.resolver = ⟨s.resolver.search, o⟩ := by rw [← hs.provider]
  rw [← hresolver] at hreading
  obtain ⟨R, hgrown, -⟩ := p.makes_resolve (t := s.world.files) hs.provider s.store
  have hserve := Engine.serve_probe p s
  constructor
  · unfold Ledger.serve reads ledger
    rw [hserve]
    dsimp only
    rw [Cache.map_view_grown hgrown hs.kept, ← hreading]
    rfl
  · rw [hserve]
    exact hs.grown rfl hgrown fun e he => .inl he

/-- So it clears. -/
theorem Sound.serve_clear (hs : s.Sound m o) :
    (s.ledger m).serve .clear = (s.reads .clear, (Engine.serve .clear s).2.ledger m) ∧
      (Engine.serve .clear s).2.Sound m o := by
  have hserve := Engine.serve_clear s
  have hempty : (s.kept.clear s.world.now).1.entries = [] := by
    rw [Cache.clear_fst]
  unfold Ledger.serve reads ledger
  dsimp only
  rw [Cache.clear_map, hserve]
  rcases hclear : s.kept.clear s.world.now with ⟨kept, _ | fault⟩
  all_goals
    rw [hclear] at hempty
    dsimp only at hempty ⊢
  · refine ⟨?_, hs.provider, hs.holds.told _, fun e he => absurd (hempty ▸ he) List.not_mem_nil⟩
    simp [Store.say, Except.map, Reply.read]
  · refine ⟨?_, hs.provider, hs.holds, fun e he => absurd (hempty ▸ he) List.not_mem_nil⟩
    simp [Except.map]

/-- A session that is read off answers a request as its ledger does, and is the ledger's next state
afterwards. -/
theorem Sound.serve (hs : s.Sound m o) (q : Request) :
    (s.ledger m).serve q = (s.reads q, (Engine.serve q s).2.ledger m) ∧
      (Engine.serve q s).2.Sound m o := by
  cases q with
  | get g => exact hs.serve_get g
  | probe p => exact hs.serve_probe p
  | clear => exact hs.serve_clear

/-- The cache after a getter is of the generation that the refresh leaves. -/
theorem Sound.generation_get (hs : s.Sound m o) (g : Getter) :
    (Engine.serve (.get g) s).2.kept.generation = (s.kept.refresh s.world.now).1.generation := by
  rw [Engine.serve_get]
  exact (Getter.fetch_eq hs.provider hs.holds hs.kept rfl).2.generation

/-- A session that is read off takes the steps of its ledger. -/
theorem Sound.step (hs : s.Sound m o) (a : SessionStep) :
    (s.step Engine.serve a).2.ledger m = (s.ledger m).step a ∧
      (s.step Engine.serve a).2.Sound m o := by
  cases a with
  | ask q =>
    obtain ⟨hserve, hsound⟩ := hs.serve q
    exact ⟨(congrArg Prod.snd hserve).symm, hsound⟩
  | files t => exact ⟨rfl, hs.provider, hs.holds, hs.kept⟩
  | resources files => exact ⟨rfl, hs.provider, hs.holds, hs.kept⟩
  | clock now => exact ⟨rfl, hs.provider, hs.holds, hs.kept⟩

/-- So it does through a run. -/
theorem Sound.run (hs : s.Sound m o) (steps : List SessionStep) :
    (s.run Engine.serve steps).2.ledger m = (s.ledger m).run steps ∧
      (s.run Engine.serve steps).2.Sound m o := by
  induction steps generalizing s with
  | nil => exact ⟨rfl, hs⟩
  | cons a rest ih =>
    obtain ⟨hstep, hsound⟩ := hs.step a
    obtain ⟨hrun, hend⟩ := ih hsound
    exact ⟨hrun.trans (congrArg (Ledger.run · rest) hstep), hend⟩

end Session

/-! ## Ledgers that agree -/

/-- Two ledgers that look at the same, and agree on the keys that count. -/
structure Ledger.AgreeOn (counts : Nat → CacheKey → Prop) (l l' : Ledger) : Prop where
  search : l.search = l'.search
  world : l.world = l'.world
  cache : l.cache.AgreeOn counts l'.cache

namespace Ledger.AgreeOn

open Cache (heard)

variable {counts : Nat → CacheKey → Prop} {l l' : Ledger} {p : Line → Bool}

/-- Ledgers that agree clear alike. -/
theorem clear (h : AgreeOn counts l l') :
    (l.serve .clear).1 = (l'.serve .clear).1 ∧
      AgreeOn counts (l.serve .clear).2 (l'.serve .clear).2 := by
  obtain ⟨hfault, hagree⟩ := h.cache.clear l.world.now
  unfold serve
  rw [← h.world]
  rcases hl : l.cache.clear l.world.now with ⟨c, fault⟩
  rcases hl' : l'.cache.clear l.world.now with ⟨c', fault'⟩
  rw [hl, hl'] at hfault hagree
  obtain rfl : fault = fault' := hfault
  rcases fault with _ | fault
  · exact ⟨rfl, h.search, rfl, hagree⟩
  · exact ⟨rfl, h.search, rfl, hagree⟩

/-- Ledgers that agree answer a getter alike if its key counts afterwards and the same is found for
it. -/
theorem get (h : AgreeOn counts l l') (g : Getter)
    (hfind : counts (l.serve (.get g)).2.cache.generation g.key →
      heard p (g.reading l.managed l.search l.world.files) =
        heard p (g.reading l'.managed l.search l.world.files)) :
    (counts (l.serve (.get g)).2.cache.generation g.key →
      heard p (l.serve (.get g)).1 = heard p (l'.serve (.get g)).1) ∧
    AgreeOn counts (l.serve (.get g)).2 (l'.serve (.get g)).2 := by
  obtain ⟨hanswer, hagree⟩ := h.cache.fetch l.world.now g.key hfind
  unfold serve
  rw [← h.world, ← h.search]
  refine ⟨fun hcounts => ?_, rfl, rfl, hagree⟩
  exact congrArg (fun a => (a.1.map Reading.value, a.2)) (hanswer hcounts)

/-- Ledgers that agree go on agreeing, if the same is found for getters whose keys count. -/
theorem step (h : AgreeOn counts l l')
    (hfind : ∀ generation g t, counts generation (Getter.key g) →
      heard p (g.reading l.managed l.search t) =
        heard p (g.reading l'.managed l.search t)) (a : SessionStep) :
    AgreeOn counts (l.step a) (l'.step a) := by
  cases a with
  | ask q =>
    cases q with
    | get g => exact (h.get g fun hcounts => hfind _ g _ hcounts).2
    | probe p => exact h
    | clear => exact h.clear.2
  | files t => exact ⟨h.search, by simp only [Ledger.step, h.world], h.cache⟩
  | resources files => exact ⟨by simp only [Ledger.step, h.search], h.world, h.cache⟩
  | clock now => exact ⟨h.search, by simp only [Ledger.step, h.world], h.cache⟩

end Ledger.AgreeOn
end Stratum
