import Stratum.Heap.Merge
import Stratum.Proofs.Heap.Behind

/-!
# What a merge makes

A merge that ends makes cells and changes none. `Heap.Merges` tells how its outcome comes about,
entry by entry, and the properties of merges are inductions on it: where the new cells lead
(`Heap.Merges.grown`), and that nothing but what stood under a key gets under it
(`Heap.Merges.find?_grown`).
-/

namespace Stratum

/-- Keys of one form find the same. -/
theorem Entries.find?_of_sameKey {α : Type} {j k : Atom} (h : j.form = k.form) (es : Entries α) :
    es.find? j = es.find? k := by
  induction es with
  | nil => rfl
  | cons e es ih =>
    rw [find?, find?, ih]
    simp [h]

namespace Heap

section Entries

variable {R : Set Addr} {es : Entries Slot}

/-- What is found under a key of entries that lead into a domain leads into it. -/
theorem find?_in (hes : ∀ e ∈ es, e.2.In R) (k : Atom) : ∀ s ∈ es.find? k, s.In R := by
  intro s hs
  obtain ⟨e, he, rfl⟩ := Entries.mem_of_find? hs
  exact hes e he

/-- Entries that lead into a domain do so after a put of a slot that does. -/
theorem put_in (hes : ∀ e ∈ es, e.2.In R) {s : Slot} (hs : s.In R) (k : Atom) :
    ∀ e ∈ es.put k s, e.2.In R := by
  intro e he
  rcases Entries.mem_put he with heq | ⟨d, hd, heq⟩
  · rwa [heq]
  · rw [← heq]
    exact hes d hd

end Entries

/-! ## How a merge comes about -/

/-- Entries of `u` laid over those of a mapping come to the merged entries, with the heap that they
are in: each is copied, or merged with the mapping that stood under its key. -/
inductive Merges (u : Heap) :
    Heap → Entries Slot → (upper : Entries Slot) → Entries Slot → Heap → Prop
  | nil {h : Heap} {lower : Entries Slot} : Merges u h lower [] lower h
  | copied {h h' : Heap} {lower rest merged : Entries Slot} {k : Atom} {t : Slot}
      (hone : (lower.find? k).bind h.entries? = none ∨ u.entries? t = none)
      (hrest : Merges u (h.copyFrom u t).2 (lower.put k (h.copyFrom u t).1) rest merged h') :
      Merges u h lower ((k, t) :: rest) merged h'
  | merged {h h₁ h' : Heap} {lower rest base es ms merged : Entries Slot} {k : Atom} {t : Slot}
      (hbase : (lower.find? k).bind h.entries? = some base) (hes : u.entries? t = some es)
      (hms : Merges u h base es ms h₁)
      (hrest : Merges u (h₁.alloc (.map ms)).2 (lower.put k (.ref (h₁.alloc (.map ms)).1)) rest
        merged h') :
      Merges u h lower ((k, t) :: rest) merged h'

/-- A slot of `u` laid over what stood under a key comes to a slot, with the heap that it is in. -/
inductive MergesAt (u h : Heap) (lower : Option Slot) (t : Slot) : Slot → Heap → Prop
  | copied (hone : lower.bind h.entries? = none ∨ u.entries? t = none) :
      MergesAt u h lower t (h.copyFrom u t).1 (h.copyFrom u t).2
  | merged {base es ms : Entries Slot} {h₁ : Heap} (hbase : lower.bind h.entries? = some base)
      (hes : u.entries? t = some es) (hms : Merges u h base es ms h₁) :
      MergesAt u h lower t (.ref (h₁.alloc (.map ms)).1) (h₁.alloc (.map ms)).2

variable {h h' h₁ u u' fresh : Heap} {R A B : Set Addr} {lower upper rest merged : Entries Slot}
  {base : Option Slot} {k : Atom} {s t : Slot} {depth : Nat}

/-- The first entry is laid over what stood under its key, then the others. -/
theorem MergesAt.cons (hat : u.MergesAt h (lower.find? k) t s h₁)
    (hrest : u.Merges h₁ (lower.put k s) rest merged h') :
    u.Merges h lower ((k, t) :: rest) merged h' := by
  cases hat with
  | copied hone => exact .copied hone hrest
  | merged hbase hes hms => exact .merged hbase hes hms hrest

/-- A merge lays its first entry over what stood under the key, then the others. -/
theorem Merges.of_cons (hm : u.Merges h lower ((k, t) :: rest) merged h') :
    ∃ s h₁, u.MergesAt h (lower.find? k) t s h₁ ∧
      u.Merges h₁ (lower.put k s) rest merged h' := by
  cases hm with
  | copied hone hrest => exact ⟨_, _, .copied hone, hrest⟩
  | merged hbase hes hms hrest => exact ⟨_, _, .merged hbase hes hms, hrest⟩

/-- What is laid under a key comes about by a copy or by a merge. -/
theorem mergesAt_of_mergeAt
    {inner : Heap → Entries Slot → Entries Slot → Option (Entries Slot × Heap)}
    (hinner : ∀ {h lower upper merged h'}, inner h lower upper = some (merged, h') →
      u.Merges h lower upper merged h')
    (hrun : mergeAt u inner h base t = some (s, h')) : u.MergesAt h base t s h' := by
  unfold mergeAt at hrun
  rcases hbase : base.bind h.entries? with _ | lower
  · rw [hbase] at hrun
    have hcopied : u.MergesAt h base t _ _ := .copied (.inl hbase)
    rwa [Option.some.inj hrun] at hcopied
  · rcases hes : u.entries? t with _ | es
    · rw [hbase, hes] at hrun
      have hcopied : u.MergesAt h base t _ _ := .copied (.inr hes)
      rwa [Option.some.inj hrun] at hcopied
    · rw [hbase, hes] at hrun
      obtain ⟨⟨ms, h₁⟩, hms, heq⟩ := Option.bind_eq_some_iff.mp hrun
      obtain ⟨rfl, rfl⟩ := Prod.mk.inj (Option.some.inj heq)
      exact .merged hbase hes (hinner hms)

/-- A merge that ends comes about so. -/
theorem merges_of_mergeIn (hrun : mergeIn u depth h lower upper = some (merged, h')) :
    u.Merges h lower upper merged h' := by
  induction depth generalizing h lower upper merged h' with
  | zero => cases hrun
  | succ depth ih =>
    rw [mergeIn] at hrun
    induction upper generalizing h lower with
    | nil =>
      obtain ⟨rfl, rfl⟩ := Prod.mk.inj (Option.some.inj hrun)
      exact .nil
    | cons e rest ihrest =>
      obtain ⟨k, t⟩ := e
      obtain ⟨⟨s, h₁⟩, hat, hrest⟩ := Option.bind_eq_some_iff.mp hrun
      exact (mergesAt_of_mergeAt ih hat).cons (ihrest hrest)

/-- A merge of two mappings makes a new one of their merged entries. -/
theorem merge_eq_some {low up : Slot} (hlower : h.entries? low = some lower)
    (hupper : h.entries? up = some upper)
    (hmerge : h.mergeEntries lower upper = some (merged, h₁)) :
    h.merge low up = some (.ref (h₁.alloc (.map merged)).1, (h₁.alloc (.map merged)).2) := by
  unfold merge
  rw [hlower, hupper]
  dsimp only
  rw [hmerge]
  rfl

/-- What comes of a merge of two mappings is made of their merged entries. -/
theorem exists_of_merge_eq_some {low up : Slot} (hrun : h.merge low up = some (s, h')) :
    ∃ lower upper merged h₁, h.entries? low = some lower ∧ h.entries? up = some upper ∧
      h.mergeEntries lower upper = some (merged, h₁) ∧
      s = .ref (h₁.alloc (.map merged)).1 ∧ h' = (h₁.alloc (.map merged)).2 := by
  unfold merge at hrun
  rcases hlower : h.entries? low with _ | lower
  · rw [hlower] at hrun
    cases hrun
  · rcases hupper : h.entries? up with _ | upper
    · rw [hlower, hupper] at hrun
      cases hrun
    · rw [hlower, hupper] at hrun
      obtain ⟨⟨merged, h₁⟩, hmerge, heq⟩ := Option.bind_eq_some_iff.mp hrun
      obtain ⟨rfl, rfl⟩ := Prod.mk.inj (Option.some.inj heq)
      exact ⟨lower, upper, merged, h₁, rfl, rfl, hmerge, rfl, rfl⟩

/-! ## Where the new cells lead -/

/-- A merge makes cells that lead to one another and to what the lower entries lead to. -/
theorem Merges.grown (hm : u.Merges h lower upper merged h') (hR : h.IsDomain R)
    (hlower : ∀ e ∈ lower, e.2.In R) :
    ∃ R', Grown h h' R R' ∧ ∀ e ∈ merged, e.2.In R' := by
  induction hm generalizing R with
  | nil => exact ⟨R, hR.grown, hlower⟩
  | @copied h h' lower rest merged k t hone hrest ih =>
    obtain ⟨R₁, hg, hin⟩ := copyFrom_grown hR u t
    obtain ⟨R₂, hg', hmerged⟩ :=
      ih hg.domain (put_in (fun e he => (hlower e he).mono hg.subset) hin k)
    exact ⟨R₂, hg.trans hg', hmerged⟩
  | @merged h h₁ h' lower rest base es ms merged k t hbase hes hms hrest ih ihrest =>
    obtain ⟨s, hs, hentries⟩ := Option.bind_eq_some_iff.mp hbase
    obtain ⟨R₁, hg, hmade⟩ := ih hR (hR.entries (find?_in hlower k s hs) hentries)
    have hnew := hg.trans (hg.domain.grown_alloc (c := .map ms) (List.forall_mem_map.mpr hmade))
    obtain ⟨R₂, hg', hmerged⟩ := ihrest hnew.domain
      (put_in (fun e he => (hlower e he).mono hnew.subset) (Set.mem_insert _ _) k)
    exact ⟨R₂, hnew.trans hg', hmerged⟩

/-- What is laid under a key leads to new cells and to what stood there. -/
theorem MergesAt.grown (hat : u.MergesAt h base t s h') (hR : h.IsDomain R)
    (hbase : ∀ s ∈ base, s.In R) : ∃ R', Grown h h' R R' ∧ s.In R' := by
  cases hat with
  | copied hone => exact copyFrom_grown hR u t
  | @merged lower es ms h₁ hentries hes hms =>
    obtain ⟨low, hlow, hentries⟩ := Option.bind_eq_some_iff.mp hentries
    obtain ⟨R', hg, hmade⟩ := hms.grown hR (hR.entries (hbase low hlow) hentries)
    have hnew := hg.domain.grown_alloc (c := .map ms) (List.forall_mem_map.mpr hmade)
    exact ⟨_, hg.trans hnew, Set.mem_insert _ _⟩

/-- A merge takes no cell away. -/
theorem Merges.size_le (hm : u.Merges h lower upper merged h') : h.cells.size ≤ h'.cells.size := by
  induction hm with
  | nil => exact le_rfl
  | @copied h h' lower rest merged k t hone hrest ih =>
    exact ((h.size_copyFrom u t).symm ▸ Nat.le_add_right _ _).trans ih
  | merged hbase hes hms hrest ih ihrest =>
    exact (ih.trans (Nat.le_of_succ_le (size_alloc _ _).ge)).trans ihrest

/-- What stands under a key after a merge leads to new cells and to what stood there before only. -/
theorem Merges.find?_grown (hm : u.Merges h lower upper merged h') (hR : h.IsDomain R)
    (hlower : ∀ e ∈ lower, e.2.In R) (hB : h.IsDomain B) (hk : ∀ s ∈ lower.find? k, s.In B) :
    ∃ B', Grown h h' B B' ∧ ∀ s ∈ merged.find? k, s.In B' := by
  induction upper generalizing h R B lower with
  | nil =>
    cases hm
    exact ⟨B, hB.grown, hk⟩
  | cons e rest ih =>
    obtain ⟨j, t⟩ := e
    obtain ⟨s, h₁, hat, hrest⟩ := hm.of_cons
    obtain ⟨R₁, hg, hin⟩ := hat.grown hR (find?_in hlower j)
    have hput := put_in (fun e he => (hlower e he).mono hg.subset) hin j
    by_cases hkey : k.form = j.form
    · rw [Entries.find?_of_sameKey hkey] at hk
      obtain ⟨B₁, hgB, hinB⟩ := hat.grown hB hk
      obtain ⟨B₂, hgB', hmerged⟩ := ih hrest hg.domain hput hgB.domain (by
        rw [Entries.find?_put_of_sameKey hkey]
        rintro s ⟨⟩
        exact hinB)
      exact ⟨B₂, hgB.trans hgB', hmerged⟩
    · have hgB := hg.stay hB
      obtain ⟨B₂, hgB', hmerged⟩ := ih hrest hg.domain hput hgB.domain (by
        rwa [Entries.find?_put_of_ne hkey])
      exact ⟨B₂, hgB.trans hgB', hmerged⟩

/-! ## Merges behind other cells -/

/-- A merge comes to the same if the upper entries are taken from where they stand again. -/
theorem Mirrors.mergeIn_eq {C : Set Addr} {place : Addr → Option Addr} (hm : u.Mirrors C place u')
    (hupper : ∀ e ∈ upper, e.2.In C) :
    mergeIn u' depth h lower (upper.map fun (k, t) => (k, t.moved place)) =
      mergeIn u depth h lower upper := by
  -- A merge asks for the entries of the upper values and copies them, and both come out alike.
  induction depth generalizing h lower upper with
  | zero => rfl
  | succ depth ih =>
    have hat : ∀ (h : Heap) (base : Option Slot) (t : Slot), t.In C →
        mergeAt u' (mergeIn u' depth) h base (t.moved place) =
          mergeAt u (mergeIn u depth) h base t := by
      intro h base t ht
      unfold mergeAt
      rw [hm.entries?_eq ht, hm.copyFrom_eq ht]
      rcases base.bind h.entries? with _ | lower
      · rfl
      · rcases hes : u.entries? t with _ | es
        · rfl
        · dsimp only [Option.map_some]
          rw [ih (hm.entries_in ht hes)]
    rw [mergeIn, mergeIn]
    induction upper generalizing h lower with
    | nil => rfl
    | cons e rest ihrest =>
      obtain ⟨k, t⟩ := e
      obtain ⟨ht, hrest⟩ := List.forall_mem_cons.mp hupper
      rw [List.map_cons, mergeList, mergeList, hat h _ t ht]
      exact Option.bind_congr fun p _ => ihrest hrest

/-- A merge of entries comes to the same if they are taken from where they stand again. -/
theorem Mirrors.mergeFrom_eq {C : Set Addr} {place : Addr → Option Addr} (hm : u.Mirrors C place u')
    (hupper : ∀ e ∈ upper, e.2.In C) (h : Heap) (lower : Entries Slot) :
    h.mergeFrom u' lower (upper.map fun (k, t) => (k, t.moved place)) =
      h.mergeFrom u lower upper := by
  have hslots : (upper.map fun (k, t) => (k, t.moved place)).map Prod.snd =
      (upper.map Prod.snd).map (Slot.moved place) := by simp
  have hdepth : h.mergeDepth u' lower (upper.map fun (k, t) => (k, t.moved place)) =
      h.mergeDepth u lower upper := by
    rw [mergeDepth, mergeDepth, hslots, hm.parts_eq (List.forall_mem_map.mpr hupper),
      List.length_map]
  rw [mergeFrom, mergeFrom, hdepth, hm.mergeIn_eq hupper]

/-- A merge that is made behind other cells. -/
theorem mergeIn_behind (h fresh u : Heap) (depth : Nat) (lower upper : Entries Slot) :
    mergeIn u depth (h.behind fresh) (shiftNamed h.cells.size lower) upper =
      (mergeIn u depth fresh lower upper).map fun p =>
        (shiftNamed h.cells.size p.1, h.behind p.2) := by
  -- On the depth, and at each depth along the upper entries, with what is put under one key first.
  induction depth generalizing fresh lower upper with
  | zero => rfl
  | succ depth ih =>
    have hat : ∀ (fresh : Heap) (base : Option Slot) (t : Slot),
        mergeAt u (mergeIn u depth) (h.behind fresh) (base.map (Slot.shift h.cells.size)) t =
          (mergeAt u (mergeIn u depth) fresh base t).map fun p =>
            (p.1.shift h.cells.size, h.behind p.2) := by
      intro fresh base t
      have hbase : (base.map (Slot.shift h.cells.size)).bind (h.behind fresh).entries? =
          (base.bind fresh.entries?).map (shiftNamed h.cells.size) := by
        rcases base with _ | s
        · rfl
        · exact h.entries?_behind fresh s
      unfold mergeAt
      rw [hbase, copyFrom_behind]
      rcases base.bind fresh.entries? with _ | lower
      · rfl
      · rcases u.entries? t with _ | es
        · rfl
        · dsimp only [Option.map_some]
          rw [ih]
          rcases mergeIn u depth fresh lower es with _ | ⟨ms, h₁⟩
          · rfl
          · exact congrArg (fun p => some (Slot.ref p.1, p.2)) (h.alloc_behind h₁ (.map ms))
    rw [mergeIn, mergeIn]
    induction upper generalizing fresh lower with
    | nil => rfl
    | cons e rest ihrest =>
      obtain ⟨k, t⟩ := e
      rw [mergeList, mergeList, Entries.find?_shiftNamed, hat]
      rcases mergeAt u (mergeIn u depth) fresh (lower.find? k) t with _ | ⟨s, h₁⟩
      · rfl
      · dsimp only [Option.map_some, Option.bind_eq_bind, Option.bind_some]
        rw [Entries.put_shiftNamed, ihrest]

/-- A merge of entries of another heap that is made behind other cells. -/
theorem mergeFrom_behind (h fresh u : Heap) (lower upper : Entries Slot) :
    (h.behind fresh).mergeFrom u (shiftNamed h.cells.size lower) upper =
      (fresh.mergeFrom u lower upper).map fun p => (shiftNamed h.cells.size p.1, h.behind p.2) := by
  have hdepth : (h.behind fresh).mergeDepth u (shiftNamed h.cells.size lower) upper =
      fresh.mergeDepth u lower upper := by
    have hlength := length_parts_behind h fresh (lower.map Prod.snd)
    rw [List.map_map] at hlength
    rw [mergeDepth, mergeDepth, ← hlength, shiftNamed, List.map_map]
    rfl
  rw [mergeFrom, mergeFrom, hdepth, mergeIn_behind]

end Heap
end Stratum
