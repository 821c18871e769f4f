import Stratum.Proofs.Engine.Table
import Stratum.Proofs.Resolve.Anew

/-!
# What requests find

The answer to a request that looks at the files, read off as a value, with the lines that are told.
It is the same whatever was made or told before and wherever the managed values stand
(`Getter.reading_eq`, `Probe.reading_eq`). For an exempt name it is the same whatever the managed
values are.
-/

namespace Stratum

/-! ## Managed values -/

/-- Managed values as they stand in a heap, with the names that are exempt; or none. -/
inductive Managed
  | nothing
  | values (heap : Heap) (slot : Slot) (alone : heap.IsDomain (heap.reach slot))
      (exempt : List String)

/-- Whether a config of this name gets no managed values. -/
def Managed.isExempt : Managed → String → Bool
  | nothing, _ => false
  | values _ _ _ exempt, name => exempt.contains name

/-- A ground has a provider of managed values: in a domain of its objects they stand again. -/
inductive Ground.Holds : Managed → Ground → Prop
  | nothing (st : Store) : Holds .nothing ⟨.nothing, st⟩
  | values {heap : Heap} {slot : Slot} {alone : heap.IsDomain (heap.reach slot)}
      {exempt : List String} {s : Slot} {st : Store} {A : Set Addr} {place : Addr → Option Addr}
      (domain : st.heap.IsDomain A) (within : s.In A) (mirrors : st.heap.Mirrors A place heap)
      (moved : s.moved place = slot) :
      Holds (.values heap slot alone exempt) ⟨.managed s exempt, st⟩

/-- The ground with nothing but a provider of the managed values. -/
def Managed.ground : Managed → Ground
  | nothing => ⟨.nothing, .empty⟩
  | values heap slot _ exempt => ⟨.managed slot exempt, ⟨heap, []⟩⟩

/-- The provider on that ground has the managed values. -/
theorem Managed.holds_ground (m : Managed) : m.ground.Holds m := by
  cases m with
  | nothing => exact .nothing .empty
  | values heap slot alone exempt =>
    exact .values alone (heap.in_reach slot) (alone.mirrors fun _ _ => rfl) (by simp)

/-- A provider of managed values exempts the names that they say. -/
theorem Ground.Holds.isExempt {m : Managed} {g : Ground} (hg : g.Holds m) (name : String) :
    g.overlay.isExempt name = m.isExempt name := by
  cases hg <;> rfl

/-- The ground of an engine without a provider, or with one that was made from a slot and a list of
exempt names. -/
def Ground.supplied (st : Store) : Option (Slot × List String) → Ground
  | none => ⟨.nothing, st⟩
  | some (source, exempt) =>
    ⟨.managed (st.heap.copy source).1 exempt, { st with heap := (st.heap.copy source).2 }⟩

/-- A copy that is made on its own leads to nothing else. -/
theorem Heap.isDomain_reach_copy (u : Heap) (s : Slot) :
    (empty.copyFrom u s).2.IsDomain ((empty.copyFrom u s).2.reach (empty.copyFrom u s).1) := by
  obtain ⟨R, hg, hin⟩ := copyFrom_grown empty.isDomain_empty u s
  exact hg.domain.reach hin

/-- The managed values of that ground: a copy of what is in the slot, on its own. -/
def Managed.supplied (h : Heap) : Option (Slot × List String) → Managed
  | none => .nothing
  | some (source, exempt) =>
    .values (Heap.empty.copyFrom h source).2 (Heap.empty.copyFrom h source).1
      (h.isDomain_reach_copy source) exempt

/-- The provider has a copy of what was in the slot. -/
theorem Ground.holds_supplied (st : Store) (supply : Option (Slot × List String)) :
    (supplied st supply).Holds (.supplied st.heap supply) := by
  rcases supply with _ | ⟨source, exempt⟩
  · exact .nothing st
  · obtain ⟨F, hmade, hin⟩ := Heap.copyFrom_grown Heap.empty.isDomain_empty st.heap source
    have hg := (Heap.isDomain_empty st.heap).grown_behind hmade.domain
    rw [supplied, Heap.copy, Heap.copyFrom_eq_behind]
    refine .values hg.domain ((Heap.in_further _ hin).mono Set.subset_union_right)
      (hg.domain.mirrors_of_behind fun addr haddr => ?_) (Slot.moved_shift _ _)
    exact (hg.new addr haddr).resolve_left id

/-! ## Laying values over a config -/

namespace Overlay

open Act (Anew anew_pure anew_look anew_make anew_makeOr anew_ofExcept onlyTells_tell)

variable {P : Ground → Prop} {name : String}

/-- Entries of another heap are laid over a config. -/
theorem anew_layOver (u : Heap) (values config : Slot) :
    Anew P (fun g => layOver u values (config.shift g.size)) fun _ => id := by
  unfold layOver
  refine (anew_look (fun n => Option.map (shiftNamed n)) (·.entries? config)
    fun g fresh _ => g.store.heap.entries?_behind fresh config).bind fun es => ?_
  rcases config with a | addr
  · exact anew_pure (fun _ => id) ()
  · rcases es with _ | lower
    · exact anew_pure (fun _ => id) ()
    · refine (anew_makeOr shiftNamed .endless
        (·.mergeFrom u lower ((u.entries? values).getD []))
        fun g fresh _ => g.store.heap.mergeFrom_behind fresh u lower _).bind fun merged => ?_
      refine (anew_make (fun _ => id) (fun h => ((), h.write addr (.map merged)))
        fun g fresh _ => ?_).bind fun _ => ?_
      · exact congrArg (Prod.mk ()) (g.store.heap.write_behind fresh addr (.map merged))
      · exact (anew_ofExcept _).bind fun text => (onlyTells_tell ..).anew

/-- Managed values are laid over a config. -/
theorem anew_mergeMap (m : Managed) (config : Slot) :
    Anew (Ground.Holds m) (fun g => g.overlay.mergeMap (config.shift g.size)) fun _ => id := by
  cases m with
  | nothing =>
    refine (anew_pure (fun _ => id) ()).congr fun g hg => ?_
    cases hg
    rfl
  | values heap slot alone exempt =>
    refine (anew_layOver heap slot config).congr_run fun g fresh hg => ?_
    cases hg with
    | @values _ _ _ _ s st A place domain within mirrors moved =>
      -- The values stand in cells that were there before, so that they still stand there.
      have hmirrors : (st.heap.behind fresh.heap).Mirrors A place heap :=
        mirrors.congr fun a ha => Heap.get?_behind_of_lt fresh.heap (domain.lt_size a ha)
      refine (run_mergeMap ..).trans ?_
      rw [Store.behind, ← layOver_moved hmirrors within, moved]

/-- What is made of the config of a name that is exempt. -/
theorem anew_overlaid_of_exempt (hexempt : ∀ g, P g → g.overlay.isExempt name = true)
    (config : Slot) :
    Anew P (fun g => g.overlay.provider.overlaid name (config.shift g.size))
      fun n => Option.map (Slot.shift n) := by
  have hskip : Anew P (fun g => do
      Resolver.reportExempt name
      return some (config.shift g.size)) fun n => Option.map (Slot.shift n) :=
    (onlyTells_tell ..).anew.bind fun _ =>
      anew_pure (fun n => Option.map (Slot.shift n)) (some config)
  refine hskip.congr fun g hg => ?_
  simp [Provider.overlaid, provider, hexempt g hg]

/-- What a provider of managed values makes of the config of a name. -/
theorem anew_overlaid (m : Managed) (name : String) (config : Slot) :
    Anew (Ground.Holds m) (fun g => g.overlay.provider.overlaid name (config.shift g.size))
      fun n => Option.map (Slot.shift n) := by
  by_cases hexempt : m.isExempt name = true
  · exact anew_overlaid_of_exempt (fun g hg => (hg.isExempt name).trans hexempt) config
  · have hmerge : Anew (Ground.Holds m)
        (fun g => do
          g.overlay.mergeMap (config.shift g.size)
          return some (config.shift g.size)) fun n => Option.map (Slot.shift n) :=
      (anew_mergeMap m config).bind fun _ =>
        anew_pure (fun n => Option.map (Slot.shift n)) (some config)
    refine hmerge.congr fun g hg => ?_
    simp [Provider.overlaid, provider, hg.isExempt name, hexempt]

end Overlay

/-! ## Requests -/

open Act (Anew Makes anew_pure)

section Requests

variable {P : Ground → Prop} {s : Search} {t : FileTree}

/-- The config whose name a getter says, if it is not for raw text. -/
def Getter.config? : Getter → Option String
  | .string _ _ => none
  | .map name _ => some name
  | .object name _ _ => some name

/-- The config whose name a request past the cache says, if it is for one. -/
def Probe.config? : Probe → Option String
  | .mapNoCache name _ | .resolveMap name _ | .resolveObject name _ _ => some name
  | .stream _ _ | .resolveString _ _ | .locate _ _ => none

/-- A name is resolved to a mapping. -/
theorem Search.anew_resolveMap {name : String} (hint : String)
    (hoverlaid : ∀ config, Anew P
      (fun g => g.overlay.provider.overlaid name (Slot.shift g.size config))
      fun n => Option.map (Slot.shift n)) :
    Anew P (fun g => (Resolver.mk s g.overlay).resolveMap t name hint)
      fun n => Option.map (Slot.shift n) := by
  have hload : Anew P (fun g => (Resolver.mk s g.overlay).loadFirst t name hint Document.extensions)
      fun n => Option.map (Slot.shift n) :=
    ((Resolver.mk s Overlay.nothing).anew_loadFirst t name hint Document.extensions).congr
      fun g _ => loadFirst_congr Document.extensions
  unfold Resolver.resolveMap
  refine hload.bind fun found => ?_
  rcases found with _ | config
  · exact anew_pure (fun n => Option.map (Slot.shift n)) none
  · exact hoverlaid config

/-- A name is resolved to an object. -/
theorem Search.anew_resolveObject {name : String} (shape : Shape) (hint : String)
    (hoverlaid : ∀ config, Anew P
      (fun g => g.overlay.provider.overlaid name (Slot.shift g.size config))
      fun n => Option.map (Slot.shift n)) :
    Anew P (fun g => (Resolver.mk s g.overlay).resolveObject t name shape hint)
      fun n => Option.map (Slot.shift n) := by
  simp only [Resolver.resolveObject_eq]
  refine (anew_resolveMap hint hoverlaid).bind fun found => ?_
  rcases found with _ | config
  · exact anew_pure (fun n => Option.map (Slot.shift n)) none
  · exact (shape.anew_build config).bind fun s =>
      anew_pure (fun n => Option.map (Slot.shift n)) (some s)

/-- What a getter finds. -/
theorem Getter.anew_resolve (g : Getter) (hoverlaid : ∀ name ∈ g.config?, ∀ config, Anew P
      (fun g => g.overlay.provider.overlaid name (Slot.shift g.size config))
      fun n => Option.map (Slot.shift n)) :
    Anew P (fun k => g.resolve t ⟨s, k.overlay⟩) fun n => Option.map (Slot.shift n) := by
  cases g with
  | string filename hint =>
    refine ((Resolver.mk s Overlay.nothing).onlyTells_resolveString t hint filename).anew.bind
      fun text => ?_
    rcases text with _ | text
    · exact anew_pure (fun n => Option.map (Slot.shift n)) none
    · exact anew_pure (fun n => Option.map (Slot.shift n)) (some (.atom (.text text)))
  | map name hint => exact Search.anew_resolveMap hint (hoverlaid name rfl)
  | object name shape hint => exact Search.anew_resolveObject _ hint (hoverlaid name rfl)

/-- A reply whose object stands further on. -/
def Reply.shift (n : Nat) : Reply → Reply
  | .slot s => .slot (s.map (Slot.shift n))
  | .text s => .text s
  | .stream s => .stream s
  | .cleared => .cleared

/-- What a request past the cache finds. -/
theorem Probe.anew_resolve (p : Probe) (hoverlaid : ∀ name ∈ p.config?, ∀ config, Anew P
      (fun g => g.overlay.provider.overlaid name (Slot.shift g.size config))
      fun n => Option.map (Slot.shift n)) :
    Anew P (fun k => p.resolve t ⟨s, k.overlay⟩) Reply.shift := by
  cases p with
  | mapNoCache name hint =>
    exact (Search.anew_resolveMap hint (hoverlaid name rfl)).bind fun found =>
      anew_pure Reply.shift (.slot found)
  | stream filename hint =>
    exact (Act.OnlyTells.anew ⟨_, _, s.tells_locate t filename hint⟩).bind fun found =>
      anew_pure Reply.shift (.stream found)
  | resolveString filename hint =>
    exact ((Resolver.mk s Overlay.nothing).onlyTells_resolveString t hint filename).anew.bind
      fun text => anew_pure Reply.shift (.text text)
  | resolveMap name hint =>
    exact (Search.anew_resolveMap hint (hoverlaid name rfl)).bind fun found =>
      anew_pure Reply.shift (.slot found)
  | resolveObject name shape hint =>
    exact (Search.anew_resolveObject _ hint (hoverlaid name rfl)).bind fun found =>
      anew_pure Reply.shift (.slot found)
  | locate filename hint =>
    exact (Act.OnlyTells.anew ⟨_, _, s.tells_locate t filename hint⟩).bind fun found =>
      anew_pure Reply.shift (.stream found)

end Requests

/-! ## Readings -/

/-- A reply without objects: what stands in its slot, read off. -/
inductive Reading
  | value (v : Option Value)
  | text (s : Option String)
  | stream (s : Option Stream)
  | cleared

/-- The slots of a reply. -/
def Reply.slots : Reply → List Slot
  | .slot s => s.toList
  | _ => []

/-- A reply read off. -/
def Reply.read (h : Heap) : Reply → Reading
  | .slot s => .value (s.map h.view)
  | .text s => .text s
  | .stream s => .stream s
  | .cleared => .cleared

/-- What a getter finds in the files, under a provider of managed values, read off. -/
def Getter.reading (m : Managed) (s : Search) (t : FileTree) (g : Getter) :
    Except Failure (Option Value) × List Line :=
  (g.resolve t ⟨s, m.ground.overlay⟩).reading (fun h => Option.map h.view) m.ground.store

/-- What a request past the cache finds, read off. -/
def Probe.reading (m : Managed) (s : Search) (t : FileTree) (p : Probe) :
    Except Failure Reading × List Line :=
  (p.resolve t ⟨s, m.ground.overlay⟩).reading Reply.read m.ground.store

section Readings

variable {P : Ground → Prop} {s : Search} {t : FileTree} {k k' : Ground}

/-- An object behind others is read off as it is on its own. -/
theorem Heap.map_view_behind (h fresh : Heap) (found : Option Slot) :
    (found.map (Slot.shift h.cells.size)).map (h.behind fresh).view = found.map fresh.view := by
  rcases found with _ | s
  · rfl
  · exact congrArg some (h.view_behind fresh s)

/-- A getter makes what it finds. -/
theorem Getter.makes_resolve (g : Getter) {r : Resolver} {o : Overlay} (hr : r.provider = o) :
    Makes (g.resolve t r) Option.toList := by
  obtain ⟨s, _⟩ := r
  obtain rfl := hr
  cases g with
  | string filename hint =>
    refine (Resolver.onlyTells_resolveString _ t hint filename).grows.makes.map fun text s hs => ?_
    obtain ⟨b, -, rfl⟩ := Option.map_eq_some_iff.mp (Option.mem_toList.mp hs)
    exact .inr ⟨.text b, rfl⟩
  | map name hint => exact Resolver.makes_resolveMap t name hint s o
  | object name shape hint => exact Resolver.makes_resolveObject t name hint s o shape.shape

/-- A request past the cache makes what it finds. -/
theorem Probe.makes_resolve (p : Probe) {r : Resolver} {o : Overlay} (hr : r.provider = o) :
    Makes (p.resolve t r) Reply.slots := by
  obtain ⟨s, _⟩ := r
  obtain rfl := hr
  cases p with
  | mapNoCache name hint | resolveMap name hint =>
    exact (Resolver.makes_resolveMap t name hint s o).map fun found s hs => .inl hs
  | stream filename hint | locate filename hint =>
    exact (Act.OnlyTells.grows ⟨_, _, s.tells_locate t filename hint⟩).makes.map
      fun found s hs => .inl hs
  | resolveString filename hint =>
    exact (Resolver.onlyTells_resolveString _ t hint filename).grows.makes.map
      fun text s hs => .inl hs
  | resolveObject name shape hint =>
    exact (Resolver.makes_resolveObject t name hint s o shape).map fun found s hs => .inl hs

/-- Where what is made of a config is the same, a getter finds the same. -/
theorem Getter.reading_congr (g : Getter) (hoverlaid : ∀ name ∈ g.config?, ∀ config, Act.Anew P
      (fun g => g.overlay.provider.overlaid name (Slot.shift g.size config))
      fun n => Option.map (Slot.shift n)) (hk : P k) (hk' : P k') :
    (g.resolve t ⟨s, k.overlay⟩).reading (fun h => Option.map h.view) k.store =
      (g.resolve t ⟨s, k'.overlay⟩).reading (fun h => Option.map h.view) k'.store := by
  exact (g.anew_resolve hoverlaid).reading_eq Heap.map_view_behind hk hk'

/-- Where what is made of a config is the same, a request past the cache finds the same. -/
theorem Probe.reading_congr (p : Probe) (hoverlaid : ∀ name ∈ p.config?, ∀ config, Act.Anew P
      (fun g => g.overlay.provider.overlaid name (Slot.shift g.size config))
      fun n => Option.map (Slot.shift n)) (hk : P k) (hk' : P k') :
    (p.resolve t ⟨s, k.overlay⟩).reading Reply.read k.store =
      (p.resolve t ⟨s, k'.overlay⟩).reading Reply.read k'.store := by
  refine (p.anew_resolve hoverlaid).reading_eq (fun h fresh reply => ?_) hk hk'
  cases reply with
  | slot found => exact congrArg Reading.value (h.map_view_behind fresh found)
  | _ => rfl

/-- What a getter finds depends on the files and the managed values only. -/
theorem Getter.reading_eq {m : Managed} (g : Getter) (hk : k.Holds m) :
    (g.resolve t ⟨s, k.overlay⟩).reading (fun h => Option.map h.view) k.store =
      g.reading m s t :=
  g.reading_congr (fun name _ => Overlay.anew_overlaid m name) hk m.holds_ground

/-- What a request past the cache finds depends on the files and the managed values only. -/
theorem Probe.reading_eq {m : Managed} (p : Probe) (hk : k.Holds m) :
    (p.resolve t ⟨s, k.overlay⟩).reading Reply.read k.store = p.reading m s t :=
  p.reading_congr (fun name _ => Overlay.anew_overlaid m name) hk m.holds_ground

end Readings
end Stratum
