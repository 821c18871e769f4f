import Stratum.Proofs.Engine.Ledger
import Stratum.Proofs.Heap.Assign
import Stratum.Proofs.Overlay.Isolation

/-!
# Answers are confined

Whoever asks an engine may change the objects that he is answered with. Two answers have a cell in
common only if they are cached answers of one row and one generation, so that such a change is seen
through those answers alone: every other request goes on being answered as by a ledger, which has no
objects to change (`Host.answers_confined`).
-/

namespace Stratum

/-! ## Hosts -/

/-- Where an answer comes from: from the files, for the answer of a number; or from the cache, in a
row and a generation. -/
inductive Origin
  | past (number : Nat)
  | kept (row : Row) (generation : Nat)
  deriving DecidableEq

/-- Where the answer to a request comes from, if it is the answer of a number and the cache is in a
generation. -/
def Request.origin (number generation : Nat) : Request → Origin
  | .get g => .kept g.row generation
  | _ => .past number

/-- What a host does: a step of the session, or a change of the answer of a number. -/
inductive Deed
  | step (a : SessionStep)
  | change (number : Nat) (m : Mutation)

/-- The steps of a session among what a host does. -/
def Deed.step? : Deed → Option SessionStep
  | step a => some a
  | change _ _ => none

/-- A session of an engine, the objects that were answered so far with where they come from, and
where those come from that were changed. -/
structure Host where
  session : Session (Cache CacheKey Slot)
  answers : List (Origin × Slot)
  changed : List Origin

namespace Host

/-- A host of a new engine, which was answered nothing. -/
def start (s : Search) (k : Ground) (w : Surroundings) : Host :=
  ⟨.opened s k w, [], []⟩

/-- Where the answer to the next request comes from. -/
def origin (σ : Host) (q : Request) : Origin :=
  q.origin σ.answers.length (Engine.serve q σ.session).2.kept.generation

/-- The object of a reply, with where it comes from. -/
def given (o : Origin) : Except Failure Reply → List (Origin × Slot)
  | .ok (.slot (some s)) => [(o, s)]
  | _ => []

/-- The host is answered a request. -/
def ask (σ : Host) (q : Request) : Host :=
  let (answer, session) := Engine.serve q σ.session
  { σ with session, answers := σ.answers ++ given (σ.origin q) answer }

/-- The host takes a step of the session. -/
def step (σ : Host) : SessionStep → Host
  | .ask q => σ.ask q
  | a => { σ with session := (σ.session.step Engine.serve a).2 }

/-- The host changes the answer of a number. -/
def change (σ : Host) (number : Nat) (m : Mutation) : Host :=
  match σ.answers[number]? with
  | none => σ
  | some (o, s) =>
    let heap := m.apply σ.session.store.heap s
    { σ with
      session := { σ.session with store := { σ.session.store with heap } }
      changed := o :: σ.changed }

/-- The host does something. -/
def act (σ : Host) : Deed → Host
  | .step a => σ.step a
  | .change number m => σ.change number m

/-- The host does several things in order. -/
def run (σ : Host) (deeds : List Deed) : Host := deeds.foldl act σ

end Host

/-- A provider has its values as long as some cells are as they were. -/
theorem Ground.Holds.exists_domain {m : Managed} {g : Ground} (hg : g.Holds m) :
    ∃ P, g.store.heap.IsDomain P ∧ ∀ st : Store,
      g.store.heap.cells.size ≤ st.heap.cells.size →
      (∀ addr ∈ P, st.heap.get? addr = g.store.heap.get? addr) → Holds m ⟨g.overlay, st⟩ := by
  cases hg with
  | nothing st => exact ⟨∅, st.heap.isDomain_empty, fun st' _ _ => .nothing st'⟩
  | @values _ _ _ _ _ st P _ domain within mirrors moved =>
    refine ⟨P, domain, fun st' hsize hsame => ?_⟩
    exact .values (domain.congr hsize hsame) within (mirrors.congr hsame) moved

namespace Host

/-- The objects, and the answers as what is held by those that they come from. -/
def scene (σ : Host) : Scene Origin := ⟨σ.session.store, {p | p ∈ σ.answers}⟩

/-- What stays true of a host: answers that come from different places stand in domains that have
nothing in common with one another and with the managed values, and what the cache keeps was
answered in its generation. -/
structure Sound (P : Set Addr) (k : Ground) (σ : Host) : Prop where
  provider : σ.session.resolver.provider = k.overlay
  apart : ∃ D, Scene.Kept P k.store.heap D σ.scene
  kept : ∀ e ∈ σ.session.kept.entries,
    (Origin.kept e.1.row σ.session.kept.generation, e.2) ∈ σ.answers
  past : ∀ (i n : Nat) (s : Slot), σ.answers[i]? = some (.past n, s) → i = n

section Sound

variable {m : Managed} {P : Set Addr} {k : Ground} {σ : Host}
  (hP : k.store.heap.IsDomain P)
  (hholds : ∀ st : Store, k.store.heap.cells.size ≤ st.heap.cells.size →
    (∀ addr ∈ P, st.heap.get? addr = k.store.heap.get? addr) → Ground.Holds m ⟨k.overlay, st⟩)

/-- A new host is sound. -/
theorem sound_start (P : Set Addr) (k : Ground) (s : Search) (w : Surroundings) :
    Sound P k (start s k w) := by
  have hnone : ∀ p ∈ (start s k w).scene.held, p.2.In (∅ : Set Addr) :=
    fun p hp => absurd hp List.not_mem_nil
  refine ⟨rfl, ⟨fun _ => ∅, le_rfl, fun _ _ => rfl, fun _ => k.store.heap.isDomain_empty, hnone,
    fun _ _ _ => disjoint_bot_left, fun _ => disjoint_bot_right⟩, ?_, ?_⟩
  · exact fun e he => absurd he List.not_mem_nil
  · intro i n s h
    cases h

/-- A reply has one object to give, or none. -/
theorem given_cases (o : Origin) (a : Except Failure Reply) :
    given o a = [] ∨ ∃ s, a = .ok (.slot (some s)) ∧ given o a = [(o, s)] := by
  unfold given
  split
  · exact .inr ⟨_, rfl, rfl⟩
  · exact .inl rfl

include hholds in
/-- The session of a sound host is sound. -/
theorem Sound.session (hσ : Sound P k σ) : σ.session.Sound m k.overlay := by
  obtain ⟨D, hD⟩ := hσ.apart
  refine ⟨hσ.provider, hholds σ.session.store hD.size_le hD.same, fun e he => ?_⟩
  exact ⟨_, hD.domain _, hD.held _ (hσ.kept e he)⟩

/-- What a refresh leaves in the cache was answered in the generation that it leaves. -/
theorem Sound.kept_refresh (hσ : Sound P k σ) (now : Moment) :
    ∀ e ∈ (σ.session.kept.refresh now).1.entries,
      (Origin.kept e.1.row (σ.session.kept.refresh now).1.generation, e.2) ∈ σ.answers := by
  intro e he
  by_cases hexpired : σ.session.kept.isExpired now = .ok true
  · rw [Cache.refresh_fst hexpired, Cache.clear_fst] at he
    cases he
  · rw [Cache.refresh_fst_of_ne hexpired] at he ⊢
    exact hσ.kept e he

/-- What serving a request does to a host: its provider stays, no cell is changed, an answer leads
to new cells or is one that came from the same place before, and what the cache keeps was answered
before or is now. -/
structure Serves (k : Ground) (σ : Host) (q : Request) (a : Except Failure Reply)
    (s' : Session (Cache CacheKey Slot)) : Prop where
  provider : s'.resolver.provider = k.overlay
  answer : ∃ R, Heap.Grown σ.session.store.heap s'.store.heap ∅ R ∧
    ∀ s, a = .ok (.slot (some s)) → s.In R ∨ (σ.origin q, s) ∈ σ.answers
  kept : ∀ e ∈ s'.kept.entries,
    (Origin.kept e.1.row s'.kept.generation, e.2) ∈ σ.answers ++ given (σ.origin q) a

variable {a : Except Failure Reply} {s' : Session (Cache CacheKey Slot)}

include hholds in
/-- A sound host is served a getter so. -/
theorem Sound.serves_get (hσ : Sound P k σ) (g : Getter)
    (hserve : Engine.serve (.get g) σ.session = (a, s')) : Serves k σ (.get g) a s' := by
  have hsession := hσ.session hholds
  have horigin : σ.origin (.get g)
      = (Request.get g).origin σ.answers.length s'.kept.generation := by
    rw [origin, hserve]
  rcases hrun : (EngineAct.fetch σ.session.world.now g.key
    (g.resolve σ.session.world.files σ.session.resolver)).run.run
      ⟨σ.session.kept, σ.session.store⟩ with ⟨found, st⟩
  obtain ⟨-, ⟨R, hgrown, hentries⟩, -, hgeneration, hkeeps⟩ :=
    Getter.fetch_eq hσ.provider hsession.holds hsession.kept hrun
  rw [Engine.serve_get, hrun] at hserve
  obtain ⟨rfl, rfl⟩ := Prod.mk.inj hserve
  have hleft := hσ.kept_refresh σ.session.world.now
  rw [← hgeneration] at hleft
  -- All that is kept under the getter's key comes from where its answer does.
  have hrow : ∀ e : CacheKey × Slot, e.1 = g.key →
      Origin.kept e.1.row st.cache.generation = σ.origin (.get g) := by
    intro e he
    rw [horigin, he, g.row_key]
    rfl
  refine ⟨hσ.provider, ⟨R, hgrown, ?_⟩, ?_⟩
  · intro s hs
    obtain rfl : found = .ok (some s) := by
      rcases found with e | v
      · cases hs
      · exact congrArg Except.ok (Reply.slot.inj (Except.ok.inj hs))
    rcases hentries _ (hkeeps s rfl) with he | ⟨-, -, hin⟩
    · exact .inr (hrow (g.key, s) rfl ▸ hleft _ he)
    · exact .inl hin
  · intro e he
    rcases hentries e he with he | ⟨hkey, rfl, -⟩
    · exact List.mem_append_left _ (hleft e he)
    · refine List.mem_append_right _ ?_
      dsimp only
      rw [hrow e hkey]
      exact List.mem_singleton.mpr rfl

/-- So it is served a request past the cache. -/
theorem Sound.serves_probe (hσ : Sound P k σ) (p : Probe)
    (hserve : Engine.serve (.probe p) σ.session = (a, s')) : Serves k σ (.probe p) a s' := by
  obtain ⟨R, hgrown, hin⟩ := p.makes_resolve (t := σ.session.world.files) hσ.provider
    σ.session.store
  rw [Engine.serve_probe] at hserve
  obtain ⟨rfl, rfl⟩ := Prod.mk.inj hserve
  refine ⟨hσ.provider, ⟨R, hgrown, fun s hs => .inl ?_⟩, fun e he => ?_⟩
  · exact hin _ hs s (List.mem_singleton.mpr rfl)
  · exact List.mem_append_left _ (hσ.kept e he)

/-- So its cache is cleared. -/
theorem Sound.serves_clear (hσ : Sound P k σ)
    (hserve : Engine.serve .clear σ.session = (a, s')) : Serves k σ .clear a s' := by
  have hempty : (σ.session.kept.clear σ.session.world.now).1.entries = [] := by
    rw [Cache.clear_fst]
  rw [Engine.serve_clear] at hserve
  rcases hclear : σ.session.kept.clear σ.session.world.now with ⟨kept, _ | fault⟩
  all_goals
    rw [hclear] at hserve hempty
    obtain ⟨rfl, rfl⟩ := Prod.mk.inj hserve
    refine ⟨hσ.provider, ⟨∅, Heap.IsDomain.grown (Heap.isDomain_empty _), ?_⟩, fun e he => ?_⟩
  · rintro s ⟨⟩
  · exact absurd (hempty ▸ he) List.not_mem_nil
  · rintro s ⟨⟩
  · exact absurd (hempty ▸ he) List.not_mem_nil

include hholds in
/-- A sound host is served every request so. -/
theorem Sound.serves (hσ : Sound P k σ) (q : Request)
    (hserve : Engine.serve q σ.session = (a, s')) : Serves k σ q a s' := by
  cases q with
  | get g => exact hσ.serves_get hholds g hserve
  | probe p => exact hσ.serves_probe p hserve
  | clear => exact hσ.serves_clear hserve

include hP hholds in
/-- A request keeps a host sound. -/
theorem Sound.ask (hσ : Sound P k σ) (q : Request) : Sound P k (σ.ask q) := by
  rcases hserve : Engine.serve q σ.session with ⟨a, s'⟩
  obtain ⟨hprovider, ⟨R, hgrown, hanswer⟩, hkept⟩ := hσ.serves hholds q hserve
  obtain ⟨D, hD⟩ := hσ.apart
  have hask : σ.ask q =
      { σ with session := s', answers := σ.answers ++ given (σ.origin q) a } := by
    rw [Host.ask, hserve]
  rw [hask]
  refine ⟨hprovider, ?_, hkept, ?_⟩
  · -- The answer is held by the place that it comes from, whose domain grows by the new cells.
    refine hD.change hP (i := σ.origin q)
      (hgrown.changed.within (hD.domain (σ.origin q)) (Set.empty_subset _)) fun p hp => ?_
    rcases List.mem_append.mp hp with hp | hp
    · exact .inl hp
    · rcases given_cases (σ.origin q) a with hnone | ⟨s, ha, hsome⟩
      · exact absurd (hnone ▸ hp) List.not_mem_nil
      · obtain rfl := List.mem_singleton.mp (hsome ▸ hp)
        refine .inr ⟨rfl, ?_⟩
        rcases hanswer s ha with hin | hmem
        · exact hin.mono Set.subset_union_right
        · exact (hD.held _ hmem).mono Set.subset_union_left
  · intro i n s hi
    rcases Nat.lt_or_ge i σ.answers.length with hlt | hge
    · rw [List.getElem?_append_left hlt] at hi
      exact hσ.past i n s hi
    · rw [List.getElem?_append_right hge] at hi
      rcases given_cases (σ.origin q) a with hnone | ⟨t, -, hsome⟩
      · rw [hnone] at hi
        cases hi
      · rw [hsome] at hi
        obtain ⟨hindex, heq⟩ := List.getElem?_eq_some_iff.mp hi
        have hlast : i = σ.answers.length := by
          rw [List.length_singleton] at hindex
          omega
        have horigin : σ.origin q = .past n := by simpa using congrArg Prod.fst heq
        rw [hlast]
        -- Only a request past the cache has a number for its origin, and that is the one of this
        -- answer.
        cases q with
        | get g => cases horigin
        | probe p => exact Origin.past.inj horigin
        | clear => exact Origin.past.inj horigin

include hP hholds in
/-- A step keeps a host sound. -/
theorem Sound.step (hσ : Sound P k σ) (a : SessionStep) : Sound P k (σ.step a) := by
  cases a with
  | ask q => exact hσ.ask hP hholds q
  | files t => exact ⟨hσ.provider, hσ.apart, hσ.kept, hσ.past⟩
  | resources files => exact ⟨hσ.provider, hσ.apart, hσ.kept, hσ.past⟩
  | clock now => exact ⟨hσ.provider, hσ.apart, hσ.kept, hσ.past⟩

/-- A change of an answer writes to the objects and is noted. -/
theorem change_eq {number : Nat} {o : Origin} {s : Slot} (h : σ.answers[number]? = some (o, s))
    (μ : Mutation) : σ.change number μ =
      { σ with
        session := { σ.session with store :=
          { σ.session.store with heap := μ.apply σ.session.store.heap s } }
        changed := o :: σ.changed } := by
  rw [change, h]

include hP in
/-- A change keeps a host sound, and changes no cell but those that the answer leads to. -/
theorem Sound.change (hσ : Sound P k σ) (number : Nat) (μ : Mutation) :
    Sound P k (σ.change number μ) := by
  rcases hanswer : σ.answers[number]? with _ | ⟨o, s⟩
  · rw [Host.change, hanswer]
    exact hσ
  · obtain ⟨D, hD⟩ := hσ.apart
    have hin : s.In (D o) := hD.held (o, s) (List.mem_of_getElem? hanswer)
    obtain ⟨R, hc⟩ := μ.confined _ s ((hD.domain o).reach hin)
    rw [change_eq hanswer]
    refine ⟨hσ.provider, ?_, hσ.kept, hσ.past⟩
    exact hD.change hP (i := o)
      (hc.within (hD.domain o) ((hD.domain o).reach_subset hin)) fun p hp => .inl hp

/-- Two answers that have a cell in common come from one row and one generation of the cache. -/
theorem Sound.kept_of_shared (hσ : Sound P k σ) {i j : Nat} {o o' : Origin} {a b : Slot}
    (hij : i ≠ j) (ha : σ.answers[i]? = some (o, a)) (hb : σ.answers[j]? = some (o', b))
    (hshare : ¬ Disjoint (σ.session.store.heap.reach a) (σ.session.store.heap.reach b)) :
    o = o' ∧ ∃ row generation, o = .kept row generation := by
  obtain ⟨D, hD⟩ := hσ.apart
  have hreach : ∀ {o a}, (o, a) ∈ σ.answers → σ.session.store.heap.reach a ⊆ D o :=
    fun hmem => (hD.domain _).reach_subset (hD.held _ hmem)
  have ho : o = o' := by
    by_contra hne
    exact hshare ((hD.disjoint o o' hne).mono (hreach (List.mem_of_getElem? ha))
      (hreach (List.mem_of_getElem? hb)))
  subst ho
  refine ⟨rfl, ?_⟩
  cases o with
  | past n => exact absurd ((hσ.past i n a ha).trans (hσ.past j n b hb).symm) hij
  | kept row generation => exact ⟨row, generation, rfl⟩

/-! ## The ledger of a host -/

/-- Nobody changed the answers of a key and a generation. -/
def Intact (σ : Host) (generation : Nat) (key : CacheKey) : Prop :=
  Origin.kept key.row generation ∉ σ.changed

/-- A host and a ledger agree on what nobody changed. -/
structure Follows (m : Managed) (P : Set Addr) (k : Ground) (σ : Host) (l : Ledger) : Prop where
  sound : Sound P k σ
  managed : l.managed = m
  agree : (σ.session.ledger m).AgreeOn σ.Intact l

/-- A change leaves alone what the cache keeps, but what comes from where the answer does. -/
theorem Sound.agreeOn_change (hσ : Sound P k σ) (hidle : σ.session.kept.flights = [])
    {number : Nat} {o : Origin} {s : Slot} (hanswer : σ.answers[number]? = some (o, s))
    (μ : Mutation) :
    ((σ.change number μ).session.ledger m).AgreeOn
      (fun generation key => Origin.kept key.row generation ≠ o) (σ.session.ledger m) := by
  obtain ⟨D, hD⟩ := hσ.apart
  have hin : s.In (D o) := hD.held (o, s) (List.mem_of_getElem? hanswer)
  have hreach := (hD.domain o).reach_subset hin
  obtain ⟨R, hc⟩ := μ.confined _ s ((hD.domain o).reach hin)
  rw [change_eq hanswer]
  refine ⟨rfl, rfl, ⟨hidle, hidle⟩, rfl, fun key hne => ?_⟩
  refine (Cache.lookup_map_entries _ key _).trans
    (Eq.trans ?_ (Cache.lookup_map_entries _ key _).symm)
  rcases hentry : σ.session.kept.entries.lookup key with _ | t
  · rfl
  · -- What the cache keeps comes from another place, which the change does not get to.
    have hmem := hσ.kept (key, t) (Cache.mem_of_lookup hentry)
    have hdomain := hD.domain (.kept key.row σ.session.kept.generation)
    have hsame := hc.same hdomain ((hD.disjoint _ o hne).mono_right hreach)
    exact congrArg some (Heap.view_congr hdomain hsame (hD.held _ hmem))

include hholds in
/-- A host that follows a ledger reads what the ledger answers, unless somebody changed the answers
of the same place. -/
theorem Follows.reads {l : Ledger} (h : Follows m P k σ l) (q : Request)
    (hq : σ.origin q ∉ σ.changed ∨ ∀ g, q ≠ .get g) : σ.session.reads q = (l.serve q).1 := by
  obtain ⟨hserve, -⟩ := (h.sound.session hholds).serve q
  have hreads : σ.session.reads q = ((σ.session.ledger m).serve q).1 :=
    (congrArg Prod.fst hserve).symm
  rw [hreads]
  cases q with
  | get g =>
    have hgeneration : ((σ.session.ledger m).serve (.get g)).2.cache.generation =
        (Engine.serve (.get g) σ.session).2.kept.generation :=
      congrArg (fun p => p.2.cache.generation) hserve
    have hheard := (h.agree.get (p := fun _ => true) g fun _ => by rw [h.managed]; rfl).1
    rw [Cache.heard_all, Cache.heard_all] at hheard
    refine hheard ?_
    rw [hgeneration, Intact, g.row_key]
    exact hq.resolve_right fun hne => hne g rfl
  | probe p =>
    have hsearch : σ.session.resolver.search = l.search := h.agree.search
    have hworld : σ.session.world = l.world := h.agree.world
    unfold Ledger.serve
    rw [h.managed, ← hsearch, ← hworld]
    rfl
  | clear => exact h.agree.clear.1

include hP hholds in
/-- A host that does something goes on following its ledger, which takes the steps of the session
only. -/
theorem Follows.act {l : Ledger} (h : Follows m P k σ l) (d : Deed) :
    Follows m P k (σ.act d) (d.step?.elim l l.step) := by
  -- A step leads both on alike. A change reaches no cached answer but those of the place that it is
  -- made in.
  cases d with
  | step a =>
    obtain ⟨hstep, -⟩ := (h.sound.session hholds).step a
    have hsession : (σ.step a).session = (σ.session.step Engine.serve a).2 := by
      cases a <;> rfl
    have hchanged : (σ.step a).changed = σ.changed := by
      cases a <;> rfl
    refine ⟨h.sound.step hP hholds a, (l.managed_step a).trans h.managed, ?_⟩
    show ((σ.step a).session.ledger m).AgreeOn (σ.step a).Intact (l.step a)
    unfold Intact
    rw [hsession, hchanged, hstep]
    exact h.agree.step (p := fun _ => true) (fun _ g t _ => by rw [h.managed]; rfl) a
  | change number μ =>
    refine ⟨h.sound.change hP number μ, h.managed, ?_⟩
    show ((σ.change number μ).session.ledger m).AgreeOn (σ.change number μ).Intact l
    rcases hanswer : σ.answers[number]? with _ | ⟨o, s⟩
    · have hnone : σ.change number μ = σ := by
        rw [Host.change, hanswer]
      rw [hnone]
      exact h.agree
    · have hchange := h.sound.agreeOn_change (m := m) h.agree.cache.idle.1 hanswer μ
      refine ⟨hchange.search.trans h.agree.search, hchange.world.trans h.agree.world,
        hchange.cache.trans h.agree.cache fun key hkey => ?_⟩
      have hgeneration : ((σ.change number μ).session.ledger m).cache.generation =
          (σ.session.ledger m).cache.generation := by
        rw [change_eq hanswer]
        rfl
      have hchanged : (σ.change number μ).changed = o :: σ.changed := by
        rw [change_eq hanswer]
      unfold Intact at hkey
      rw [hchanged, List.mem_cons, not_or] at hkey
      exact ⟨hkey.1, hgeneration ▸ hkey.2⟩

include hP hholds in
/-- So it does through a run. -/
theorem Follows.run {l : Ledger} (h : Follows m P k σ l) (deeds : List Deed) :
    Follows m P k (σ.run deeds) (l.run (deeds.filterMap Deed.step?)) := by
  induction deeds generalizing σ l with
  | nil => exact h
  | cons d rest ih =>
    have hrest := ih (h.act hP hholds d)
    cases d with
    | step a => exact hrest
    | change number μ => exact hrest

include hP hholds in
/-- A change of an answer makes no difference to a request whose answer comes from another place. -/
theorem Follows.reads_change {l : Ledger} (h : Follows m P k σ l) {number : Nat} {o : Origin}
    {s : Slot} (hanswer : σ.answers[number]? = some (o, s)) (μ : Mutation) (q : Request)
    (hq : σ.origin q ≠ o) : (σ.change number μ).session.reads q = σ.session.reads q := by
  have hchange := h.sound.agreeOn_change (m := m) h.agree.cache.idle.1 hanswer μ
  obtain ⟨hserve, -⟩ := ((h.sound.change hP number μ).session hholds).serve q
  obtain ⟨hserve', -⟩ := (h.sound.session hholds).serve q
  have hreads := congrArg Prod.fst hserve
  have hreads' := congrArg Prod.fst hserve'
  dsimp only at hreads hreads'
  rw [← hreads, ← hreads']
  cases q with
  | get g =>
    have hheard := (hchange.get (p := fun _ => true) g fun _ => rfl).1
    rw [Cache.heard_all, Cache.heard_all] at hheard
    refine hheard ?_
    -- The refresh before the answer does not look at the objects.
    have hgeneration : (((σ.change number μ).session.ledger m).serve (.get g)).2.cache.generation =
        (Engine.serve (.get g) σ.session).2.kept.generation :=
      calc (((σ.change number μ).session.ledger m).serve (.get g)).2.cache.generation
        _ = (Engine.serve (.get g) (σ.change number μ).session).2.kept.generation :=
          congrArg (fun p => p.2.cache.generation) hserve
        _ = (σ.session.kept.refresh σ.session.world.now).1.generation := by
          rw [((h.sound.change hP number μ).session hholds).generation_get, change_eq hanswer]
        _ = (Engine.serve (.get g) σ.session).2.kept.generation :=
          ((h.sound.session hholds).generation_get g).symm
    rw [hgeneration, g.row_key]
    exact hq
  | probe p => rw [change_eq hanswer]; rfl
  | clear => exact hchange.clear.1

end Sound

/-- Whatever a host asks, however the files, the bundle and the clock change meanwhile, and whatever
the host does to the objects that it was answered with, two answers have a cell in common only if
they are cached answers of one row and one generation. What is found past the cache depends on the
files and the managed values only; what a getter answers does too, with what the cache was given
since the last clear, unless the host changed a cached answer of the same row and generation; and no
change of an answer makes a difference to a request whose answer comes from another place. -/
theorem answers_confined (st : Store) (supply : Option (Slot × List String)) (s : Search)
    (w : Surroundings) (deeds : List Deed) :
    let m := Managed.supplied st.heap supply
    let σ := (start s (Ground.supplied st supply) w).run deeds
    let l := (⟨s, m, .empty, w⟩ : Ledger).run (deeds.filterMap Deed.step?)
    (∀ (i j : Nat) (o o' : Origin) (a b : Slot), i ≠ j →
      σ.answers[i]? = some (o, a) → σ.answers[j]? = some (o', b) →
      ¬ Disjoint (σ.session.store.heap.reach a) (σ.session.store.heap.reach b) →
        o = o' ∧ ∃ row generation, o = .kept row generation) ∧
    (∀ p, σ.session.reads (.probe p) =
      p.reading m σ.session.resolver.search σ.session.world.files) ∧
    (∀ g, σ.origin (.get g) ∉ σ.changed → σ.session.reads (.get g) = (l.serve (.get g)).1) ∧
    ∀ (number : Nat) (o : Origin) (a : Slot) (μ : Mutation) (q : Request),
      σ.answers[number]? = some (o, a) → σ.origin q ≠ o →
      (σ.change number μ).session.reads q = σ.session.reads q := by
  intro m σ l
  obtain ⟨P, hP, hholds⟩ := (Ground.holds_supplied st supply).exists_domain
  have hstart : Follows m P (Ground.supplied st supply)
      (start s (Ground.supplied st supply) w) ⟨s, m, .empty, w⟩ :=
    ⟨sound_start P _ s w, rfl, rfl, rfl, .empty _⟩
  have h : Follows m P (Ground.supplied st supply) σ l := hstart.run hP hholds deeds
  refine ⟨?_, fun p => ?_, fun g hg => h.reads hholds (.get g) (.inl hg), ?_⟩
  · intro i j o o' a b hij ha hb hshare
    exact h.sound.kept_of_shared hij ha hb hshare
  · have hsession := h.sound.session hholds
    exact (congrArg Prod.fst (hsession.serve (.probe p)).1).symm
  · intro number o a μ q hanswer hq
    exact h.reads_change hP hholds hanswer μ q hq

end Host

namespace SharedAnswer

/-- Noon, with a config of one name. -/
def noon : Surroundings := ⟨LaterExtension.plain, .inMay 0 12 0⟩

/-- The config is asked for twice and once past the cache, and in the second answer an entry of the
mapping inside is changed. -/
def deeds : List Deed := [
  .step (.ask (.get (.map "x" ""))), .step (.ask (.get (.map "x" ""))),
  .step (.ask (.probe (.mapNoCache "x" ""))),
  .change 1 (.assign [.text "k", .text "a"] (.atom (.int 7)))]

/-- The host that does so, without managed values. -/
def host : Host :=
  (Host.start LaterExtension.search (Ground.supplied .empty none) noon).run deeds

/-- The ledger of that host. -/
def ledger : Ledger :=
  (⟨LaterExtension.search, .nothing, .empty, noon⟩ : Ledger).run (deeds.filterMap Deed.step?)

/-- Where the first two answers come from. -/
def cached : Origin := .kept ⟨.map, "x", none, ""⟩ 1

/-- The cell that a slot leads to. -/
def addr? : Slot → Option Addr
  | .atom _ => none
  | .ref addr => some addr

/-- Two numbers in the mapping that a request is answered with: the one that is changed and the one
beside it. -/
def numbers (q : Request) : List (Option Int) :=
  match (host.session.reads q).1 with
  | .ok (.value (some v)) => [["k", "a"], ["k", "b"]].map (LaterExtension.number? v)
  | _ => []

/-- The two cached answers are one object, so that the next one is changed too. The answer past the
cache is another object and is not, and under another path hint the engine answers as its ledger
does, whatever becomes of the second answer. -/
theorem seen_through_cached_answers :
    (host.answers.map fun (o, s) => (o, addr? s)) =
      [(cached, some 0), (cached, some 0), (.past 2, some 2)] ∧
    host.origin (.get (.map "x" "")) ∈ host.changed ∧
    numbers (.get (.map "x" "")) = [some 7, some 2] ∧
    numbers (.probe (.mapNoCache "x" "")) = [some 1, some 2] ∧
    host.session.reads (.probe (.mapNoCache "x" "")) =
      Probe.reading .nothing host.session.resolver.search host.session.world.files
        (.mapNoCache "x" "") ∧
    host.session.reads (.get (.map "x" "h")) = (ledger.serve (.get (.map "x" "h"))).1 ∧
    ∀ μ, (host.change 1 μ).session.reads (.get (.map "x" "h")) =
      host.session.reads (.get (.map "x" "h")) := by
  have hanswers : (host.answers.map fun (o, s) => (o, addr? s)) =
      [(cached, some 0), (cached, some 0), (.past 2, some 2)] := by decide +kernel
  have horigin : host.origin (.get (.map "x" "h")) ∉ host.changed := by decide +kernel
  have hother : host.origin (.get (.map "x" "h")) ≠ cached := by decide +kernel
  have hconfined := Host.answers_confined .empty none LaterExtension.search noon deeds
  rw [show Managed.supplied Store.empty.heap none = .nothing from rfl] at hconfined
  dsimp only at hconfined
  rw [← host, ← ledger] at hconfined
  obtain ⟨-, hprobe, hget, hchange⟩ := hconfined
  refine ⟨hanswers, by decide +kernel, by decide +kernel, by decide +kernel,
    hprobe (.mapNoCache "x" ""), hget (.map "x" "h") horigin, fun μ => ?_⟩
  have hsecond : (host.answers[1]?).map Prod.fst = some cached := by
    have hmap := congrArg (fun l => (l[1]?).map Prod.fst) hanswers
    simpa using hmap
  obtain ⟨⟨o, s⟩, hanswer, rfl⟩ := Option.map_eq_some_iff.mp hsecond
  exact hchange 1 cached s μ (.get (.map "x" "h")) hanswer hother

end SharedAnswer
end Stratum
