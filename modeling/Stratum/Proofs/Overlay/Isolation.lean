import Mathlib.Logic.Relation
import Stratum.Proofs.Heap.Building
import Stratum.Proofs.Overlay.Merge

/-!
# Managed values are isolated

Whoever holds the mapping that a provider was made from, a merged config or an object that was built
may change all that is reached from it, at any time and in any way. The cells of the provider are
reached by nobody, so that its values stay what they were when it was made, and holders that had
nothing in common before have nothing in common afterwards (`Overlay.ofValues_isolated`).
-/

namespace Stratum

namespace Overlay

open Heap (Changed IsDomain)

variable {R : Set Addr} {config values : Slot} {exempt : List String} {st : Store}

/-- Building an object from a config changes cells of a domain only that the config leads into, and
the object leads into what the domain grows to. -/
theorem changed_mergeObject (values : Slot) (exempt : List String) (shape : Shape)
    (hR : st.heap.IsDomain R) (hconfig : config.In R) {r : Except Failure Slot} {st' : Store}
    (hrun : ((managed values exempt).mergeObject config shape).run.run st = (r, st')) :
    ∃ R', Changed st.heap st'.heap R R' ∧ ∀ s, r = .ok s → s.In R' := by
  unfold mergeObject at hrun
  rw [Act.run_bind] at hrun
  obtain ⟨R₁, hc⟩ := changed_mergeMap values exempt hR hconfig
  rcases hmerge : ((managed values exempt).mergeMap config).run.run st with ⟨e | _, st₁⟩
  · rw [hmerge] at hrun hc
    obtain ⟨rfl, rfl⟩ := Prod.mk.inj hrun
    refine ⟨R₁, hc, ?_⟩
    rintro s ⟨⟩
  · rw [hmerge] at hrun hc
    obtain ⟨R₂, hg, hin⟩ := Shape.grows_build shape config st₁ R₁ hc.domain
      (List.forall_mem_singleton.mpr (hconfig.mono hc.subset))
    dsimp only at hrun
    rw [hrun] at hg hin
    exact ⟨R₂, hc.trans hg.changed, fun s hs => hin s hs s List.mem_cons_self⟩

/-- Building an object from a config leaves alone what a merge does. -/
theorem spares_mergeObject (values : Slot) (exempt : List String) (shape : Shape)
    (hR : st.heap.IsDomain R) (hconfig : config.In R) {r : Except Failure Slot} {st' : Store}
    (hrun : ((managed values exempt).mergeObject config shape).run.run st = (r, st')) :
    Spares st.heap (managedEntries values st.heap) config st.heap st'.heap := by
  unfold mergeObject at hrun
  rw [Act.run_bind] at hrun
  obtain ⟨R₁, hc⟩ := changed_mergeMap values exempt hR hconfig
  have hspares := spares_mergeMap values exempt hR hconfig
  rcases hmerge : ((managed values exempt).mergeMap config).run.run st with ⟨e | _, st₁⟩
  · rw [hmerge] at hrun hspares
    obtain ⟨rfl, rfl⟩ := Prod.mk.inj hrun
    exact hspares
  · rw [hmerge] at hrun hspares hc
    obtain ⟨R₂, hg, -⟩ := Shape.grows_build shape config st₁ R₁ hc.domain
      (List.forall_mem_singleton.mpr (hconfig.mono hc.subset))
    dsimp only at hrun
    rw [hrun] at hg
    exact hspares.grown hc.size_le hc.domain (hconfig.mono hc.subset) hg

end Overlay

/-! ## Scenes -/

/-- The objects, and the slots that each of some holders has. -/
structure Scene (ι : Type) where
  store : Store
  held : Set (ι × Slot)

namespace Scene

variable {ι : Type} {σ σ' : Scene ι} {o : Overlay}

/-- The cells that a holder reaches. -/
def reach (σ : Scene ι) (i : ι) : Set Addr :=
  {addr | ∃ s, (i, s) ∈ σ.held ∧ σ.store.heap.Reaches s addr}

/-- All that is reached is there, and no two holders reach the same cell. -/
structure Apart (σ : Scene ι) : Prop where
  lt_size : ∀ i, ∀ addr ∈ σ.reach i, addr < σ.store.heap.cells.size
  disjoint : ∀ i j, i ≠ j → Disjoint (σ.reach i) (σ.reach j)

/-- What a holder may do: make an object of what it reaches, change one that it reaches into
another, keep a slot, and have a provider merge a config that it reaches or build an object from
it. -/
inductive Step (o : Overlay) : Scene ι → Scene ι → Prop
  | make {σ : Scene ι} (i : ι) (c : Cell) (hc : ∀ s ∈ c.slots, s.In (σ.reach i)) :
      Step o σ ⟨⟨(σ.store.heap.alloc c).2, σ.store.log⟩,
        insert (i, .ref (σ.store.heap.alloc c).1) σ.held⟩
  | write {σ : Scene ι} (i : ι) (addr : Addr) (c : Cell) (haddr : addr ∈ σ.reach i)
      (hc : ∀ s ∈ c.slots, s.In (σ.reach i)) :
      Step o σ ⟨⟨σ.store.heap.write addr c, σ.store.log⟩, σ.held⟩
  | keep {σ : Scene ι} (i : ι) (s : Slot) (hs : s.In (σ.reach i)) :
      Step o σ ⟨σ.store, insert (i, s) σ.held⟩
  | merge {σ : Scene ι} (i : ι) (config : Slot) (hconfig : config.In (σ.reach i)) :
      Step o σ ⟨((o.mergeMap config).run.run σ.store).2, σ.held⟩
  | build {σ : Scene ι} (i : ι) (config : Slot) (shape : Shape) (s : Slot) (st : Store)
      (hconfig : config.In (σ.reach i))
      (hrun : (o.mergeObject config shape).run.run σ.store = (.ok s, st)) :
      Step o σ ⟨st, insert (i, s) σ.held⟩
  | fail {σ : Scene ι} (i : ι) (config : Slot) (shape : Shape) (e : Failure) (st : Store)
      (hconfig : config.In (σ.reach i))
      (hrun : (o.mergeObject config shape).run.run σ.store = (.error e, st)) :
      Step o σ ⟨st, σ.held⟩

/-- Any number of steps. -/
abbrev Runs (o : Overlay) : Scene ι → Scene ι → Prop := Relation.ReflTransGen (Step o)

/-- Each holder has a domain, the domains have nothing in common with one another and with one that
is kept from all, and the cells of that one are what they were. -/
structure Kept (P : Set Addr) (h : Heap) (D : ι → Set Addr) (σ : Scene ι) : Prop where
  size_le : h.cells.size ≤ σ.store.heap.cells.size
  same : ∀ addr ∈ P, σ.store.heap.get? addr = h.get? addr
  domain : ∀ i, σ.store.heap.IsDomain (D i)
  held : ∀ p ∈ σ.held, p.2.In (D p.1)
  disjoint : ∀ i j, i ≠ j → Disjoint (D i) (D j)
  off : ∀ i, Disjoint P (D i)

section Kept

variable {P : Set Addr} {h : Heap} {D : ι → Set Addr}

/-- A holder reaches cells of its domain only. -/
theorem Kept.reach_subset (hσ : Kept P h D σ) (i : ι) : σ.reach i ⊆ D i := by
  rintro addr ⟨s, hs, hreach⟩
  exact (hσ.domain i).reach_subset (hσ.held (i, s) hs) hreach

/-- A change in the domain of one holder, who may come to hold more in it, keeps the domains. -/
theorem Kept.change (hσ : Kept P h D σ) (hP : h.IsDomain P) {i : ι} {R' : Set Addr}
    (hc : Heap.Changed σ.store.heap σ'.store.heap (D i) R')
    (hheld : ∀ p ∈ σ'.held, p ∈ σ.held ∨ p.1 = i ∧ p.2.In R') : ∃ D', Kept P h D' σ' := by
  classical
  have hPσ : σ.store.heap.IsDomain P := hP.congr hσ.size_le hσ.same
  have hsame : ∀ addr ∈ P, σ'.store.heap.get? addr = h.get? addr := by
    intro addr haddr
    calc σ'.store.heap.get? addr
      _ = σ.store.heap.get? addr := hc.same hPσ (hσ.off i) addr haddr
      _ = h.get? addr := hσ.same addr haddr
  -- Only the domain of the holder grows, and it grows by new cells.
  have hdomain : ∀ j, σ'.store.heap.IsDomain (Function.update D i R' j) :=
    (Function.forall_update_iff D fun _ A => σ'.store.heap.IsDomain A).mpr
      ⟨hc.domain, fun j hj => hc.isDomain (hσ.domain j) (hσ.disjoint j i hj)⟩
  have hoff : ∀ j, Disjoint P (Function.update D i R' j) :=
    (Function.forall_update_iff D fun _ A => Disjoint P A).mpr
      ⟨hc.disjoint hPσ (hσ.off i), fun j _ => hσ.off j⟩
  have hother : ∀ j, j ≠ i → Disjoint (D j) R' := fun j hj =>
    hc.disjoint (hσ.domain j) (hσ.disjoint j i hj)
  refine ⟨Function.update D i R', hσ.size_le.trans hc.size_le, hsame, hdomain, ?_, ?_, hoff⟩
  · intro p hp
    by_cases hi : p.1 = i
    · rw [hi, Function.update_self]
      rcases hheld p hp with hp | ⟨-, hin⟩
      · exact (hi ▸ hσ.held p hp : p.2.In (D i)).mono hc.subset
      · exact hin
    · rw [Function.update_of_ne hi]
      exact hσ.held p ((hheld p hp).resolve_right fun hp => hi hp.1)
  · intro j k hjk
    by_cases hj : j = i
    · rw [hj, Function.update_self, Function.update_of_ne fun hk => hjk (hj.trans hk.symm)]
      exact (hother k fun hk => hjk (hj.trans hk.symm)).symm
    · rw [Function.update_of_ne hj]
      by_cases hk : k = i
      · rw [hk, Function.update_self]
        exact hother j hj
      · rw [Function.update_of_ne hk]
        exact hσ.disjoint j k hjk

/-- A step keeps the domains. -/
theorem Kept.step {values : Slot} {exempt : List String} (hσ : Kept P h D σ) (hP : h.IsDomain P)
    (hstep : Step (.managed values exempt) σ σ') : ∃ D', Kept P h D' σ' := by
  have hin : ∀ {i : ι} {s : Slot}, s.In (σ.reach i) → s.In (D i) :=
    fun hs => hs.mono (hσ.reach_subset _)
  -- Each step makes cells of its own or writes into those of one owner, and leads to slots of that
  -- owner only.
  cases hstep with
  | make i c hc =>
    have hg := (hσ.domain i).grown_alloc fun s hs => hin (hc s hs)
    refine hσ.change hP hg.changed ?_
    rintro p (rfl | hp)
    · exact .inr ⟨rfl, Set.mem_insert _ _⟩
    · exact .inl hp
  | write i addr c haddr hc =>
    have hchanged := (hσ.domain i).changed_write (hσ.reach_subset i haddr) fun s hs => hin (hc s hs)
    exact hσ.change hP hchanged fun p hp => .inl hp
  | keep i s hs =>
    refine hσ.change hP (hσ.domain i).grown.changed ?_
    rintro p (rfl | hp)
    · exact .inr ⟨rfl, hin hs⟩
    · exact .inl hp
  | merge i config hconfig =>
    obtain ⟨R', hc⟩ := Overlay.changed_mergeMap values exempt (hσ.domain i) (hin hconfig)
    exact hσ.change hP hc fun p hp => .inl hp
  | build i config shape s st hconfig hrun =>
    obtain ⟨R', hc, hs⟩ :=
      Overlay.changed_mergeObject values exempt shape (hσ.domain i) (hin hconfig) hrun
    refine hσ.change hP hc ?_
    rintro p (rfl | hp)
    · exact .inr ⟨rfl, hs s rfl⟩
    · exact .inl hp
  | fail i config shape e st hconfig hrun =>
    obtain ⟨R', hc, -⟩ :=
      Overlay.changed_mergeObject values exempt shape (hσ.domain i) (hin hconfig) hrun
    exact hσ.change hP hc fun p hp => .inl hp

/-- A run keeps the domains. -/
theorem Kept.runs {values : Slot} {exempt : List String} (hσ : Kept P h D σ) (hP : h.IsDomain P)
    (hruns : Runs (.managed values exempt) σ σ') : ∃ D', Kept P h D' σ' := by
  induction hruns with
  | refl => exact ⟨D, hσ⟩
  | tail _ hstep ih =>
    obtain ⟨D', hkept⟩ := ih
    exact hkept.step hP hstep

/-- Holders with domains that have nothing in common are apart. -/
theorem Kept.apart (hσ : Kept P h D σ) : σ.Apart :=
  ⟨fun i addr haddr => (hσ.domain i).lt_size addr (hσ.reach_subset i haddr), fun i j hij =>
    (hσ.disjoint i j hij).mono (hσ.reach_subset i) (hσ.reach_subset j)⟩

end Kept

end Scene

namespace Overlay

open Scene (Runs Kept)

variable {ι : Type}

/-- Making a provider makes a copy of the values that nobody reaches. -/
theorem kept_ofValues {start : Scene ι} (hstart : start.Apart) (source : Slot)
    (exempt : List String) : ∃ values st P,
      (ofValues source exempt).run.run start.store = (.ok (.managed values exempt), st) ∧
      st.heap.view values = start.store.heap.view source ∧
      (∀ k rest, st.heap.namesIn (managedEntries values st.heap) k rest =
        start.store.heap.namesIn (managedEntries source start.store.heap) k rest) ∧
      st.heap.IsDomain P ∧ values.In P ∧
      Kept P st.heap start.reach ⟨st, start.held⟩ := by
  have hcopy := start.store.heap.mirrors_copyFrom start.store.heap source
  obtain ⟨P, hg, hin⟩ :=
    Heap.copyFrom_grown start.store.heap.isDomain_empty start.store.heap source
  have hdomain : ∀ i, start.store.heap.IsDomain (start.reach i) := fun i =>
    Heap.isDomain_of_reaches (hstart.lt_size i) fun addr ⟨s, hs, haddr⟩ other hother =>
      ⟨s, hs, haddr.trans hother⟩
  have hheld : ∀ p ∈ start.held, p.2.In (start.reach p.1) := fun p hp =>
    (start.store.heap.in_reach p.2).mono fun addr haddr => ⟨p.2, hp, haddr⟩
  -- The cells of the copy are new, and what is reached was there before.
  have hoff : ∀ i, Disjoint P (start.reach i) := by
    intro i
    rw [Set.disjoint_left]
    intro addr haddr hreach
    rcases hg.new addr haddr with hmem | hle
    · exact Set.notMem_empty _ hmem
    · exact absurd (hstart.lt_size i addr hreach) (Nat.not_lt.mpr hle)
  refine ⟨_, ⟨(start.store.heap.copy source).2, start.store.log⟩, P, rfl,
    start.store.heap.view_copyFrom _ source,
    hcopy.namesIn_eq (start.store.heap.in_reach source), hg.domain, hin, ?_⟩
  exact ⟨le_rfl, fun _ _ => rfl, fun i => hg.isDomain (hdomain i), hheld, hstart.disjoint, hoff⟩

/-- Whatever holders do with what they reach, the mapping that a provider was made from among it,
and however configs are merged and objects are built meanwhile, the managed values stay the copy
that was taken when the provider was made, nobody reaches them, and holders that were apart stay so.
Each merge changes no cell but the top of its config; the config and an object built from it lead to
new cells and to those only that the config led to; and at the paths that the managed values do not
name the config has what it had. -/
theorem ofValues_isolated {start : Scene ι} (hstart : start.Apart) (source : Slot)
    (exempt : List String) : ∃ values st,
      (ofValues source exempt).run.run start.store = (.ok (.managed values exempt), st) ∧
      st.heap.view values = start.store.heap.view source ∧
      ∀ σ, Runs (.managed values exempt) ⟨st, start.held⟩ σ →
        σ.store.heap.view values = start.store.heap.view source ∧
        (∀ i, Disjoint (σ.store.heap.reach values) (σ.reach i)) ∧
        σ.Apart ∧
        ∀ i config, config.In (σ.reach i) →
          Spares start.store.heap (managedEntries source start.store.heap) config σ.store.heap
            (((managed values exempt).mergeMap config).run.run σ.store).2.heap ∧
          ∀ shape r st', ((managed values exempt).mergeObject config shape).run.run σ.store =
            (r, st') →
              Spares start.store.heap (managedEntries source start.store.heap) config σ.store.heap
                st'.heap ∧
              ∀ s, r = .ok s → ∀ addr ∈ st'.heap.reach s,
                addr ∈ σ.store.heap.reach config ∨ σ.store.heap.cells.size ≤ addr := by
  obtain ⟨values, st, P, hrun, hcopy, hnames, hP, hvalues, hkept⟩ :=
    kept_ofValues hstart source exempt
  refine ⟨values, st, hrun, hcopy, fun σ hruns => ?_⟩
  obtain ⟨D, hσ⟩ := hkept.runs hP hruns
  have hview : σ.store.heap.view values = start.store.heap.view source :=
    calc σ.store.heap.view values
      _ = st.heap.view values := Heap.view_congr hP hσ.same hvalues
      _ = start.store.heap.view source := hcopy
  -- The copy names what the original did, and so it does as long as its cells are kept.
  have hsame : ∀ k rest, start.store.heap.namesIn (managedEntries source start.store.heap) k rest =
      σ.store.heap.namesIn (managedEntries values σ.store.heap) k rest := by
    intro k rest
    have hlater := (hP.mirrors hσ.same).namesIn_eq hvalues k rest
    rw [Slot.moved_some] at hlater
    exact (hnames k rest).symm.trans hlater.symm
  refine ⟨hview, fun i => ?_, hσ.apart, fun i config hconfig => ?_⟩
  · have hreach := (hP.congr hσ.size_le hσ.same).reach_subset hvalues
    exact (hσ.off i).mono hreach (hσ.reach_subset i)
  · have hin : config.In (D i) := hconfig.mono (hσ.reach_subset i)
    refine ⟨(spares_mergeMap values exempt (hσ.domain i) hin).congr hsame,
      fun shape r st' hrun' => ?_⟩
    refine ⟨(spares_mergeObject values exempt shape (hσ.domain i) hin hrun').congr hsame, ?_⟩
    intro s hs addr haddr
    -- What the config leads to is a domain, and the object leads into what it grows to.
    obtain ⟨R', hc, hobject⟩ := changed_mergeObject values exempt shape
      ((hσ.domain i).reach hin) (σ.store.heap.in_reach config) hrun'
    exact hc.new addr (hc.domain.reach_subset (hobject s hs) haddr)

end Overlay

namespace Anchored

/-- The mapping that a provider is made from, a document with one mapping under two keys, and an
empty config, each with a holder of its own. -/
def start : Scene Nat :=
  ⟨⟨⟨#[.map [(.text "b", .atom (.int 1))], .map [(.text "a", .ref 0)],
      .map [(.text "q", .atom (.int 2))], .map [(.text "a", .ref 2), (.text "c", .ref 2)],
      .map []]⟩, []⟩,
    {(0, .ref 1), (1, .ref 3), (2, .ref 4)}⟩

/-- The holder that a cell belongs to. -/
def holder? : Addr → Option Nat
  | 0 | 1 => some 0
  | 2 | 3 => some 1
  | 4 => some 2
  | _ => none

/-- What the cells of a holder hold belongs to the holder. -/
theorem isDomain_holder (i : Nat) : start.store.heap.IsDomain {addr | holder? addr = some i} := by
  constructor
  · intro addr haddr
    match addr with
    | 0 | 1 | 2 | 3 | 4 => decide
    | _ + 5 => cases haddr
  · intro addr haddr c hcell
    match addr with
    | 0 | 2 =>
      obtain rfl := Option.some.inj hcell
      exact List.forall_mem_singleton.mpr trivial
    | 1 =>
      obtain rfl := Option.some.inj hcell
      exact List.forall_mem_singleton.mpr haddr
    | 3 =>
      obtain rfl := Option.some.inj hcell
      exact List.forall_mem_cons.mpr ⟨haddr, List.forall_mem_singleton.mpr haddr⟩
    | 4 =>
      obtain rfl := Option.some.inj hcell
      exact fun s hs => absurd hs List.not_mem_nil
    | _ + 5 => cases haddr

/-- The holders have nothing in common. -/
theorem apart_start : start.Apart := by
  have hkept : Scene.Kept ∅ start.store.heap (fun i => {addr | holder? addr = some i}) start := by
    refine ⟨le_rfl, fun _ _ => rfl, isDomain_holder, ?_, ?_, fun i => Set.empty_disjoint _⟩
    · rintro p (rfl | rfl | rfl) <;> rfl
    · intro i j hij
      rw [Set.disjoint_left]
      intro addr hi hj
      exact hij (Option.some.inj (hi.symm.trans hj))
  exact hkept.apart

/-- The provider that is made from the mapping. -/
def provider : Overlay := .managed (.ref 5) []

/-- What is there when the provider is made. -/
def made : Scene Nat := ⟨((Overlay.ofValues (.ref 1) []).run.run start.store).2, start.held⟩

/-- The mapping that the provider was made from is changed. -/
def rewritten : Scene Nat :=
  ⟨⟨made.store.heap.write 0 (.map [(.text "b", .atom (.int 9))]), made.store.log⟩, made.held⟩

/-- The document is merged. -/
def merged : Scene Nat :=
  ⟨((provider.mergeMap (.ref 3)).run.run rewritten.store).2, rewritten.held⟩

/-- What the document has under the first key now is emptied. -/
def emptied : Scene Nat := ⟨⟨merged.store.heap.write 7 (.map []), merged.store.log⟩, merged.held⟩

/-- What can be done to a scene by changing a mapping, merging a config and changing what it has. -/
theorem runs_emptied : Scene.Runs provider made emptied := by
  have hrewrite : Scene.Step provider made rewritten :=
    .write 0 0 _ ⟨.ref 1, by simp [made, start], .there rfl List.mem_cons_self (.here 0)⟩
      (by simp [Cell.slots, Slot.In])
  have hmerge : Scene.Step provider rewritten merged :=
    .merge 1 (.ref 3) ⟨.ref 3, by simp [rewritten, made, start], .here 3⟩
  have hempty : Scene.Step provider merged emptied :=
    .write 1 7 _ ⟨.ref 3, by simp [merged, rewritten, made, start],
      .there rfl List.mem_cons_self (.here 7)⟩ (by simp [Cell.slots])
  exact ((Relation.ReflTransGen.single hrewrite).tail hmerge).tail hempty

/-- The provider still has what the mapping was when it was made, though the mapping was changed and
the part of it that was merged into the document was emptied; what the document has under the other
key is what it was; and the empty config gets the managed values as they were. -/
theorem copy_stays : ∃ values st,
    (Overlay.ofValues (.ref 1) []).run.run start.store = (.ok (.managed values []), st) ∧
      emptied.store.heap.view (.ref 1) = .map [(.text "a", .map [(.text "b", .atom (.int 9))])] ∧
      emptied.store.heap.view (.ref 3) =
        .map [(.text "a", .map []), (.text "c", .map [(.text "q", .atom (.int 2))])] ∧
      emptied.store.heap.view values = start.store.heap.view (.ref 1) ∧
      emptied.Apart ∧
      Overlay.Spares start.store.heap [(.text "a", .ref 0)] (.ref 4) emptied.store.heap
        (((Overlay.managed values []).mergeMap (.ref 4)).run.run emptied.store).2.heap := by
  obtain ⟨values, st, hrun, -, hisolated⟩ :=
    Overlay.ofValues_isolated apart_start (.ref 1) []
  have hmade : (Overlay.ofValues (.ref 1) []).run.run start.store = (.ok provider, made.store) :=
    rfl
  obtain ⟨hprovider, hst⟩ := Prod.mk.inj (hmade.symm.trans hrun)
  obtain ⟨rfl, -⟩ := Overlay.managed.inj (Except.ok.inj hprovider)
  subst hst
  obtain ⟨hview, -, hapart, hmerge⟩ := hisolated emptied runs_emptied
  have hconfig : (Slot.ref 4).In (emptied.reach 2) :=
    ⟨.ref 4, by simp [emptied, merged, rewritten, made, start], .here 4⟩
  exact ⟨_, _, hrun, rfl, rfl, hview, hapart, (hmerge 2 (.ref 4) hconfig).1⟩

end Anchored
end Stratum
