import Stratum.Proofs.Engine.Reading
import Stratum.Proofs.Overlay.Ending

/-!
# Laying managed values over configs

A config that is found and can be used has the managed values laid over it, unless its name is
exempt; one that is missing or cannot be used gets none of them (`Resolver.receives_resolveMap`).
-/

namespace Stratum

/-! ## What comes of a merge -/

namespace Overlay

/-- The mapping in a slot of another heap was laid over the config at an address: its top holds what
the merge comes to, and where no container stands in itself, the config is read off as the values
merged. -/
structure LaidOver (u : Heap) (values : Slot) (addr : Addr) (h h' : Heap) : Prop where
  entries : ∃ lower merged h₁, h.entries? (.ref addr) = some lower ∧
    h.mergeFrom u lower (managedEntries values u) = some (merged, h₁) ∧
    h' = h₁.write addr (.map merged) ∧ h'.entries? (.ref addr) = some merged
  view : ∀ lower upper, h.view (.ref addr) = .map lower → (Value.map lower).Straight →
    u.view values = .map upper → (Value.map upper).Straight →
      h'.view (.ref addr) = .map (Value.mergeEntries lower upper)

/-- What a name is resolved to under managed values, by what it is resolved to without any. A
failure and a config that is missing stay as they are, with nothing made or told besides. Over a
mapping the values are laid, and the logger is told their names; only a name that is a number too
long to write prevents that, after the merge. A merge that would never end fails, which happens to
values that stand in themselves only. -/
inductive Receives (u : Heap) (values : Slot) :
    (plain managed : Except Failure (Option Slot) × Store) → Prop
  | failed (e : Failure) (st : Store) : Receives u values (.error e, st) (.error e, st)
  | missing (st : Store) : Receives u values (.ok none, st) (.ok none, st)
  | merged {addr : Addr} {st : Store} {heap : Heap} {text : String}
      (laid : LaidOver u values addr st.heap heap)
      (applied : appliedText (managedEntries values u).keys = .ok text) :
      Receives u values (.ok (some (.ref addr)), st)
        (.ok (some (.ref addr)), ⟨heap, st.log ++ [⟨.debug, topic, text⟩]⟩)
  | unnamed {addr : Addr} {st : Store} {heap : Heap} {fault : Numeral.Fault}
      (laid : LaidOver u values addr st.heap heap)
      (applied : appliedText (managedEntries values u).keys = .error fault) :
      Receives u values (.ok (some (.ref addr)), st) (.error (.number fault), ⟨heap, st.log⟩)
  | endless {addr : Addr} {st : Store} {lower : Entries Slot}
      (config : st.heap.entries? (.ref addr) = some lower)
      (never : st.heap.mergeFrom u lower (managedEntries values u) = none)
      (loops : ¬ (u.view values).Straight) :
      Receives u values (.ok (some (.ref addr)), st) (.error .endless, st)

section Laid

variable {u h h₁ : Heap} {R U : Set Addr} {addr : Addr} {lower merged : Entries Slot}
  {values : Slot} (hU : u.IsDomain U) (hvalues : values.In U)
include hU hvalues

/-- A merge that ends lays the values over the config. -/
theorem laidOver_of_mergeFrom (hR : h.IsDomain R) (haddr : (Slot.ref addr).In R)
    (hlower : h.entries? (.ref addr) = some lower)
    (hmerge : h.mergeFrom u lower (managedEntries values u) = some (merged, h₁)) :
    LaidOver u values addr h (h₁.write addr (.map merged)) := by
  have hm := Heap.merges_of_mergeIn hmerge
  have hlt : addr < h.cells.size := hR.lt_size addr haddr
  refine ⟨⟨lower, merged, h₁, hlower, hmerge, rfl,
    Heap.entries?_write (hlt.trans_le hm.size_le) _⟩, ?_⟩
  intro low upper hlow hlowStraight hupper hupperStraight
  have hstraight : (h.view (.ref addr)).Straight := hlow ▸ hlowStraight
  obtain ⟨hread, -⟩ := Heap.view_of_entries? hR haddr hlower hstraight
  obtain rfl : low = h.viewEntries lower := Value.map.inj (hlow.symm.trans hread)
  rcases hes : u.entries? values with _ | es
  · have hnone := Heap.entries?_view_of_none hes
    rw [hupper] at hnone
    cases hnone
  · obtain ⟨hreadUpper, hinner⟩ := Heap.view_of_entries? hU hvalues hes (hupper ▸ hupperStraight)
    obtain rfl : upper = u.viewEntries es := Value.map.inj (hupper.symm.trans hreadUpper)
    rw [managedEntries, hes, Option.getD_some] at hm
    exact view_of_merges hm hR haddr hlower hstraight hU (hU.entries hvalues hes) hinner

/-- Values of which none stands in itself are merged to an end. -/
theorem exists_mergeFrom_of_straight (hstraight : (u.view values).Straight) (h : Heap)
    (lower : Entries Slot) :
    ∃ merged h', h.mergeFrom u lower (managedEntries values u) = some (merged, h') := by
  unfold managedEntries
  rcases hes : u.entries? values with _ | es
  · exact Heap.exists_mergeFrom u.isDomain_empty (fun e he => absurd he List.not_mem_nil)
      (fun e he => absurd he List.not_mem_nil) h lower
  · obtain ⟨-, hinner⟩ := Heap.view_of_entries? hU hvalues hes hstraight
    exact Heap.exists_mergeFrom hU (hU.entries hvalues hes) hinner h lower

end Laid

section Moved

variable {u u' h h' : Heap} {C : Set Addr} {place : Addr → Option Addr} {values : Slot}
  {addr : Addr} (hm : u.Mirrors C place u') (hvalues : values.In C)
include hm hvalues

/-- What is laid over a config from where it stands again is laid over it. -/
theorem LaidOver.of_moved (hlaid : LaidOver u' (values.moved place) addr h h') :
    LaidOver u values addr h h' := by
  obtain ⟨⟨lower, merged, h₁, hlower, hmerge, heq, hentries⟩, hview⟩ := hlaid
  rw [mergeFrom_managedEntries_moved hm hvalues] at hmerge
  rw [hm.view_eq hvalues] at hview
  exact ⟨⟨lower, merged, h₁, hlower, hmerge, heq, hentries⟩, hview⟩

/-- What a name receives from where the values stand again it receives from them. -/
theorem Receives.of_moved {plain managed : Except Failure (Option Slot) × Store}
    (hreceives : Receives u' (values.moved place) plain managed) :
    Receives u values plain managed := by
  have hkeys := keys_managedEntries_moved hm hvalues
  cases hreceives with
  | failed e st => exact .failed e st
  | missing st => exact .missing st
  | merged laid applied => exact .merged (laid.of_moved hm hvalues) (hkeys ▸ applied)
  | unnamed laid applied => exact .unnamed (laid.of_moved hm hvalues) (hkeys ▸ applied)
  | endless config never loops =>
    rw [mergeFrom_managedEntries_moved hm hvalues] at never
    rw [hm.view_eq hvalues] at loops
    exact .endless config never loops

end Moved

/-- A provider lays values over a mapping, unless the name is exempt. -/
theorem receives_overlaid {st : Store} {u : Heap} {R U : Set Addr} {addr : Addr}
    {lower : Entries Slot} {s values : Slot} {name : String} {exempt : List String}
    (hname : name ∉ exempt) (hR : st.heap.IsDomain R) (haddr : (Slot.ref addr).In R)
    (hlower : st.heap.entries? (.ref addr) = some lower) (hU : u.IsDomain U)
    (hvalues : values.In U)
    (hlay : layOver st.heap s (.ref addr) = layOver u values (.ref addr)) :
    Receives u values (.ok (some (.ref addr)), st)
      (((managed s exempt).provider.overlaid name (.ref addr)).run.run st) := by
  have hoverlaid : (managed s exempt).provider.overlaid name (.ref addr) = (do
      (managed s exempt).mergeMap (.ref addr)
      return some (.ref addr)) := by
    simp [Provider.overlaid, provider, isExempt, hname]
  rw [hoverlaid, Act.run_bind, run_mergeMap, hlay, run_layOver_mapping u values hlower]
  dsimp only
  rcases hmerge : st.heap.mergeFrom u lower (managedEntries values u) with _ | ⟨merged, h₁⟩
  · refine .endless hlower hmerge fun hstraight => ?_
    obtain ⟨merged, h₁, hsome⟩ := exists_mergeFrom_of_straight hU hvalues hstraight st.heap lower
    rw [hmerge] at hsome
    cases hsome
  · have hlaid := laidOver_of_mergeFrom hU hvalues hR haddr hlower hmerge
    dsimp only
    rcases happlied : appliedText (managedEntries values u).keys with fault | text
    · exact .unnamed hlaid happlied
    · exact .merged hlaid happlied

/-- The names of managed values have a text if they are texts. -/
theorem exists_appliedText {keys : List Atom} (h : ∀ k ∈ keys, ∃ s, k = .text s) :
    ∃ text, appliedText keys = .ok text := by
  have hnames : ∃ names, keys.mapM Atom.display = .ok names := by
    induction keys with
    | nil => exact ⟨[], rfl⟩
    | cons k keys ih =>
      obtain ⟨⟨s, rfl⟩, hkeys⟩ := List.forall_mem_cons.mp h
      obtain ⟨names, hnames⟩ := ih hkeys
      exact ⟨Text.codePoints s :: names, by rw [List.mapM_cons, hnames]; rfl⟩
  obtain ⟨names, hnames⟩ := hnames
  unfold appliedText
  rw [hnames]
  exact ⟨_, rfl⟩

end Overlay

/-! ## Resolving a name -/

namespace Resolver

open Act (Answers answers_pure answers_throw answers_bind)

section Answers

variable (r : Resolver) (t : FileTree) (name hint : String)

/-- What is loaded is a mapping. -/
def IsMapping (found : Option Slot) (st : Store) : Prop :=
  ∀ config ∈ found, (st.heap.entries? config).isSome = true

/-- What is made of the content of a stream is a mapping. -/
theorem answers_mappingOf (s : Stream) (filename : String) (bytes : List UInt8) :
    (mappingOf s filename bytes).Answers
      fun config st => (st.heap.entries? config).isSome = true := by
  unfold mappingOf
  refine Answers.tryCatch (fun _ _ _ => Document.isSome_entries?_of_parseMapping) fun e => ?_
  split
  · exact answers_bind fun _ => answers_throw _
  · exact answers_throw _

/-- What is found in a file is a mapping. -/
theorem answers_load (filename : String) : (r.load t filename hint).Answers IsMapping := by
  unfold load
  refine answers_bind fun found => ?_
  split
  · exact answers_pure fun st config hconfig => by cases hconfig
  · split
    · refine (answers_mappingOf _ filename _).map fun config st hconfig c hc => ?_
      obtain rfl := Option.some.inj hc
      exact hconfig
    · exact answers_bind fun _ => answers_pure fun st config hconfig => by cases hconfig

/-- What is found for a name is a mapping. -/
theorem answers_loadFirst (extensions : List String) :
    (r.loadFirst t name hint extensions).Answers IsMapping := by
  induction extensions with
  | nil => exact answers_pure fun st config hconfig => by cases hconfig
  | cons e rest ih =>
    intro st found st' hrun
    unfold loadFirst at hrun
    rw [Act.run_bind] at hrun
    rcases hload : (r.load t (name ++ e) hint).run.run st with ⟨e' | _ | config, st₁⟩
    · rw [hload] at hrun
      cases congrArg Prod.fst hrun
    · rw [hload] at hrun
      exact ih st₁ found st' hrun
    · rw [hload] at hrun
      obtain ⟨hok, rfl⟩ := Prod.mk.inj hrun
      obtain rfl := Except.ok.inj hok
      exact r.answers_load t hint (name ++ e) st (some config) st₁ hload

end Answers

variable {s : Search} {t : FileTree} {name : String} {heap : Heap} {slot : Slot}
  {alone : heap.IsDomain (heap.reach slot)} {exempt : List String} {k : Ground}

/-- Without a provider the config of a name is what is found for it. -/
theorem resolveMap_nothing (hint : String) :
    (Resolver.mk s Overlay.nothing).resolveMap t name hint =
      (Resolver.mk s Overlay.nothing).loadFirst t name hint Document.extensions := by
  unfold resolveMap
  refine (bind_congr fun found => ?_).trans (bind_pure _)
  rcases found with _ | config
  · rfl
  · rfl

/-- A provider is asked about the config that a name is resolved to without it. -/
theorem run_resolveMap (p : Provider) (hint : String) (st : Store) :
    ((Resolver.mk s p).resolveMap t name hint).run.run st =
      match ((Resolver.mk s Overlay.nothing).resolveMap t name hint).run.run st with
      | (.error e, st) => (.error e, st)
      | (.ok none, st) => (.ok none, st)
      | (.ok (some config), st) => (p.overlaid name config).run.run st := by
  rw [resolveMap_nothing, resolveMap, Act.run_bind,
    Search.loadFirst_congr (q := Overlay.nothing) Document.extensions]
  rcases ((Resolver.mk s Overlay.nothing).loadFirst t name hint Document.extensions).run.run st with
    ⟨e | _ | config, st₁⟩ <;> rfl

/-- Over the config of a name that is not exempt a provider lays its values, if it is found and can
be used. -/
theorem receives_resolveMap (hk : k.Holds (.values heap slot alone exempt))
    (hname : name ∉ exempt) (hint : String) :
    Overlay.Receives heap slot
      (((Resolver.mk s Overlay.nothing).resolveMap t name hint).run.run k.store)
      (((Resolver.mk s k.overlay).resolveMap t name hint).run.run k.store) := by
  cases hk with
  | @values heap slot alone exempt values st A place domain within mirrors moved =>
    have hmapping :=
      (Resolver.mk s Overlay.nothing).answers_loadFirst t name hint Document.extensions st
    obtain ⟨R, hg, hin⟩ := makes_resolveMap t name hint s .nothing st
    rw [← resolveMap_nothing] at hmapping
    dsimp only
    rw [run_resolveMap (Overlay.managed values exempt)]
    rcases hplain : ((Resolver.mk s Overlay.nothing).resolveMap t name hint).run.run st with
      ⟨e | _ | config, st₁⟩
    all_goals
      rw [hplain] at hg hin
      dsimp only at hg hin ⊢
    · exact .failed e st₁
    · exact .missing st₁
    · obtain ⟨lower, hlower⟩ := Option.isSome_iff_exists.mp (hmapping _ st₁ hplain config rfl)
      obtain ⟨addr, rfl⟩ : ∃ addr, config = .ref addr := by
        cases config with
        | atom a => cases hlower
        | ref addr => exact ⟨addr, rfl⟩
      -- The managed values stand in cells that were there before the file was read.
      have hmirrors : st₁.heap.Mirrors A place heap :=
        mirrors.congr fun a ha => hg.get?_eq a (domain.lt_size a ha)
      have hlay := Overlay.layOver_moved hmirrors within (.ref addr)
      rw [moved] at hlay
      exact Overlay.receives_overlaid hname hg.domain
        (hin _ rfl (.ref addr) List.mem_cons_self) hlower alone (heap.in_reach slot) hlay.symm

end Resolver

end Stratum
