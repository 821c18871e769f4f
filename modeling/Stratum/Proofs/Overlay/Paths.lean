import Stratum.Proofs.Overlay.Ending

/-!
# A merge by its paths

What a merge comes to is told path by path. Where the upper mapping has something other than a
mapping, or a mapping where the lower one has none, the outcome has what the upper one has; where
both have mappings it has a mapping with the keys of the lower one and then the new keys of the
upper one; what the upper one does not touch is as it was in the lower one; and nothing stands below
what the upper one put in the place of a mapping.
-/

namespace Stratum

/-- After a put the key is there, and the others are if they were. -/
theorem Entries.hasKey_put {α : Type} {es : Entries α} {j k : Atom} {v : α} :
    (es.put k v).hasKey j = (es.hasKey j || decide (j.form = k.form)) := by
  by_cases hj : j.form = k.form
  · simp [hasKey, find?_put_of_sameKey hj, hj]
  · simp [hasKey, find?_put_of_ne hj, hj]

namespace Heap

/-! ## The entries of a merge -/

section Merges

variable {h h' u : Heap} {R : Set Addr} {lower upper merged : Entries Slot} {k : Atom} {t : Slot}

/-- The keys of merged entries are those of the lower ones and then the new ones of the upper. -/
theorem Merges.keys_eq (hm : u.Merges h lower upper merged h') (hupper : upper.Distinct) :
    merged.keys = lower.keys ++ upper.keys.filter fun k => !lower.hasKey k := by
  induction upper generalizing h lower with
  | nil =>
    cases hm
    simp [Entries.keys]
  | cons e rest ih =>
    obtain ⟨k, t⟩ := e
    obtain ⟨hk, hrest⟩ := Entries.distinct_cons.mp hupper
    obtain ⟨s, h₁, -, hm⟩ := hm.of_cons
    -- Among the keys that follow, the put makes no difference to which are new.
    have hnew : (Entries.keys rest).filter (fun j => !(lower.put k s).hasKey j) =
        (Entries.keys rest).filter fun j => !lower.hasKey j := by
      refine List.filter_congr fun j hj => ?_
      obtain ⟨e, he, rfl⟩ := List.mem_map.mp hj
      rw [Entries.hasKey_put, decide_eq_false (Entries.find?_eq_none_iff.mp hk e he), Bool.or_false]
    rw [ih hm hrest, hnew]
    rcases hhas : lower.hasKey k with _ | _
    · rw [Entries.put_of_not_hasKey hhas]
      simp [Entries.keys, hhas]
    · rw [Entries.keys_put_of_hasKey hhas]
      simp [Entries.keys, hhas]

/-- What is found under a key that the upper entries lack is found there in the lower ones. -/
theorem Merges.find?_of_none (hm : u.Merges h lower upper merged h') (hk : upper.find? k = none) :
    merged.find? k = lower.find? k := by
  induction upper generalizing h lower with
  | nil =>
    cases hm
    rfl
  | cons e rest ih =>
    obtain ⟨j, t⟩ := e
    obtain ⟨s, h₁, -, hm⟩ := hm.of_cons
    obtain ⟨hj, hrest⟩ := List.forall_mem_cons.mp (Entries.find?_eq_none_iff.mp hk)
    rw [ih hm (Entries.find?_eq_none_iff.mpr hrest), Entries.find?_put_of_ne (Ne.symm hj)]

/-- What is found under a key of the upper entries is what was laid there, in a heap that grew
before and has grown since. -/
theorem Merges.find?_of_some (hm : u.Merges h lower upper merged h') (hR : h.IsDomain R)
    (hlower : ∀ e ∈ lower, e.2.In R) (hupper : upper.Distinct) (hk : upper.find? k = some t) :
    ∃ h₁ R₁ s h₂ A A', Grown h h₁ R R₁ ∧ u.MergesAt h₁ (lower.find? k) t s h₂ ∧
      merged.find? k = some s ∧ h₂.IsDomain A ∧ s.In A ∧ Grown h₂ h' A A' := by
  induction upper generalizing h R lower with
  | nil => cases hk
  | cons e rest ih =>
    obtain ⟨j, w⟩ := e
    obtain ⟨hj, hrest⟩ := Entries.distinct_cons.mp hupper
    obtain ⟨s, h₁, hat, hm⟩ := hm.of_cons
    obtain ⟨R₁, hg, hin⟩ := hat.grown hR (find?_in hlower j)
    have hput := put_in (fun e he => (hlower e he).mono hg.subset) hin j
    by_cases hkey : k.form = j.form
    · -- None of the entries that follow has the key.
      have hrest' : Entries.find? k rest = none := by rwa [Entries.find?_of_sameKey hkey]
      obtain rfl : w = t := by simpa [Entries.find?, hkey] using hk
      obtain ⟨R₂, hg', -⟩ := hm.grown hg.domain hput
      refine ⟨h, R, s, h₁, R₁, R₂, hR.grown, ?_, ?_, hg.domain, hin, hg'⟩
      · rwa [Entries.find?_of_sameKey hkey]
      · rw [hm.find?_of_none hrest', Entries.find?_put_of_sameKey hkey]
    · have hk' : Entries.find? k rest = some t := by simpa [Entries.find?, Ne.symm hkey] using hk
      obtain ⟨h₂, R₂, r, h₃, A, A', hg₂, hat', hfind, hlast⟩ := ih hm hg.domain hput hrest hk'
      rw [Entries.find?_put_of_ne hkey] at hat'
      exact ⟨h₂, R₂, r, h₃, A, A', hg.trans hg₂, hat', hfind, hlast⟩

end Merges

/-! ## Path by path -/

/-- Below what is no mapping nothing stands. -/
theorem at?_of_leaf {u : Heap} {t w : Slot} {path q : List Atom} (hq : q <+: path) (hne : q ≠ path)
    (hw : u.at? t q = some w) (hleaf : u.entries? w = none) : u.at? t path = none := by
  obtain ⟨r, rfl⟩ := hq
  cases r with
  | nil => exact absurd (List.append_nil q).symm hne
  | cons k r =>
    rw [at?_append, hw, Option.bind_some, at?, hleaf, Option.bind_none, Option.bind_none]

/-- What stands at a path under what may be there. -/
def under (h : Heap) (lower : Option Slot) (path : List Atom) : Option Slot :=
  lower.bind (h.at? · path)

/-- Under a key stands what is found there, if there is a mapping. -/
theorem under_cons (h : Heap) (lower : Option Slot) (k : Atom) (rest : List Atom) :
    h.under lower (k :: rest) = h.under ((lower.bind h.entries?).bind (Entries.find? k)) rest := by
  cases lower <;> rfl

/-- A slot holds a slot of `u` laid over what stood in another slot, as far as a path tells. -/
structure LaidAt (u h : Heap) (lower : Option Slot) (upper : Slot) (h' : Heap) (r : Slot)
    (path : List Atom) : Prop where
  /-- The upper slot has something other than a mapping at the path, or nothing that was there is
  one. -/
  replaced : ∀ w, u.at? upper path = some w →
    u.entries? w = none ∨ (h.under lower path).bind h.entries? = none →
    ∃ s, h'.at? r path = some s ∧ h'.view s = u.view w
  /-- Both have a mapping at the path. -/
  merged : ∀ w us es, u.at? upper path = some w → u.entries? w = some us →
    (h.under lower path).bind h.entries? = some es →
    ∃ s ms, h'.at? r path = some s ∧ h'.entries? s = some ms ∧
      ms.keys = es.keys ++ (Entries.keys us).filter fun k => !es.hasKey k
  /-- The upper slot has nothing at the path, and mappings all the way where it has anything. -/
  kept : u.at? upper path = none →
    (∀ q w, q <+: path → q ≠ path → u.at? upper q = some w → (u.entries? w).isSome = true) →
    h'.at? r path = h.under lower path ∧ ∀ s, h'.at? r path = some s → h'.view s = h.view s
  /-- The upper slot has something other than a mapping on the way. -/
  dropped : ∀ q w, q <+: path → q ≠ path → u.at? upper q = some w → u.entries? w = none →
    h'.at? r path = none

variable {u h h₁ h' h'' : Heap} {R R₁ A A' : Set Addr} {lower : Option Slot} {r s t w : Slot}
  {path : List Atom}

/-- What stands at a path under what may be there leads into a domain that this leads into. -/
theorem IsDomain.under (hR : h.IsDomain R) (hlower : ∀ s ∈ lower, s.In R)
    (hs : h.under lower path = some s) : s.In R := by
  obtain ⟨t, ht, hs⟩ := Option.bind_eq_some_iff.mp hs
  exact hR.at? (hlower t ht) hs

/-- What is so of a slot stays so while cells are made, before the upper slot is laid and after. -/
theorem LaidAt.grown (hlaid : u.LaidAt h₁ lower t h' r path) (hR : h.IsDomain R)
    (hlower : ∀ s ∈ lower, s.In R) (hg : Grown h h₁ R R₁) (hA : h'.IsDomain A) (hr : r.In A)
    (hg' : Grown h' h'' A A') : u.LaidAt h lower t h'' r path := by
  -- Neither growth changes a cell of the heap it starts from, so that what is found on the way and
  -- what is read off stay.
  have hbefore : ∀ addr ∈ R, h₁.get? addr = h.get? addr :=
    fun addr haddr => hg.get?_eq addr (hR.lt_size addr haddr)
  have hafter : ∀ addr ∈ A, h''.get? addr = h'.get? addr :=
    fun addr haddr => hg'.get?_eq addr (hA.lt_size addr haddr)
  have hunder : h₁.under lower path = h.under lower path :=
    Option.bind_congr fun s hs => at?_congr hR hbefore (hlower s hs) path
  have hentries : (h₁.under lower path).bind h₁.entries? =
      (h.under lower path).bind h.entries? := by
    rw [hunder]
    exact Option.bind_congr fun s hs => entries?_congr hbefore (hR.under hlower hs)
  have hat : h''.at? r path = h'.at? r path := at?_congr hA hafter hr path
  have hview : ∀ {s}, h'.at? r path = some s → h''.view s = h'.view s :=
    fun hs => hg'.view_eq hA (hA.at? hr hs)
  refine ⟨fun w hw hone => ?_, fun w us es hw hus hes => ?_, fun hnone hway => ?_, ?_⟩
  · rw [← hentries] at hone
    obtain ⟨s, hs, hw⟩ := hlaid.replaced w hw hone
    exact ⟨s, hat.trans hs, (hview hs).trans hw⟩
  · rw [← hentries] at hes
    obtain ⟨s, ms, hs, hms, hkeys⟩ := hlaid.merged w us es hw hus hes
    exact ⟨s, ms, hat.trans hs, (entries?_congr hafter (hA.at? hr hs)).trans hms, hkeys⟩
  · obtain ⟨hsame, hread⟩ := hlaid.kept hnone hway
    refine ⟨hat.trans (hsame.trans hunder), fun s hs => ?_⟩
    rw [hat] at hs
    have hin : s.In R := hR.under hlower (hunder.symm.trans (hsame.symm.trans hs))
    calc h''.view s
      _ = h'.view s := hview hs
      _ = h₁.view s := hread s hs
      _ = h.view s := hg.view_eq hR hin
  · intro q w hq hne hw hleaf
    exact hat.trans (hlaid.dropped q w hq hne hw hleaf)

/-- A slot that is not laid over a mapping, or holds none itself, is copied. -/
theorem laidAt_copyFrom (hone : lower.bind h.entries? = none ∨ u.entries? t = none)
    (path : List Atom) :
    u.LaidAt h lower t (h.copyFrom u t).2 (h.copyFrom u t).1 path := by
  have hcopy := h.mirrors_copyFrom u t
  have hat := hcopy.at?_eq (u.in_reach t) path
  -- What is not laid over a mapping stands where there was nothing below.
  have hbelow : ∀ k rest, u.entries? t ≠ none → h.under lower (k :: rest) = none := by
    intro k rest hmap
    rw [under_cons, hone.resolve_right hmap]
    rfl
  refine ⟨fun w hw _ => ?_, fun w us es hw hus hes => ?_, fun hnone hway => ?_, ?_⟩
  · rw [hw] at hat
    refine ⟨_, hat, hcopy.view_eq ?_⟩
    cases w with
    | atom a => trivial
    | ref addr => exact reaches_of_at? hw
  · cases path with
    | nil =>
      obtain rfl := Option.some.inj hw
      have hbase : lower.bind h.entries? = some es := by cases lower <;> exact hes
      simp [hbase, hus] at hone
    | cons k rest =>
      have hmap : u.entries? t ≠ none := by
        intro hleaf
        rw [at?, hleaf] at hw
        contradiction
      rw [hbelow k rest hmap] at hes
      contradiction
  · cases path with
    | nil => contradiction
    | cons k rest =>
      have hmap := hway [] t List.nil_prefix (List.cons_ne_nil k rest).symm rfl
      rw [hnone] at hat
      rw [hbelow k rest (Option.ne_none_iff_isSome.mpr hmap)]
      exact ⟨hat, fun s hs => absurd (hat.symm.trans hs) (Option.some_ne_none s).symm⟩
  · intro q w hq hne hw hleaf
    rw [at?_of_leaf hq hne hw hleaf] at hat
    exact hat

/-- What is so of the slot under a key is so of the mapping, below the key. -/
theorem LaidAt.cons {us : Entries Slot} {k : Atom}
    (hlaid : u.LaidAt h ((lower.bind h.entries?).bind (Entries.find? k)) w h' s path)
    (hus : u.entries? t = some us) (hw : us.find? k = some w)
    (hs : (h'.entries? r).bind (Entries.find? k) = some s) :
    u.LaidAt h lower t h' r (k :: path) := by
  -- One key more in front of the path, on both sides.
  have hat : h'.at? r (k :: path) = h'.at? s path := by rw [at?, hs, Option.bind_some]
  have hupper : ∀ q, u.at? t (k :: q) = u.at? w q := by
    intro q
    rw [at?, hus, Option.bind_some, hw, Option.bind_some]
  refine ⟨fun x hx hone => ?_, fun x vs es hx hvs hes => ?_, fun hnone hway => ?_, ?_⟩
  · rw [under_cons] at hone
    rw [hat]
    exact hlaid.replaced x (hupper path ▸ hx) hone
  · rw [under_cons] at hes
    rw [hat]
    exact hlaid.merged x vs es (hupper path ▸ hx) hvs hes
  · rw [hat, under_cons]
    refine hlaid.kept (hupper path ▸ hnone) fun q x hq hne hx => ?_
    exact hway (k :: q) x (List.cons_prefix_cons.mpr ⟨rfl, hq⟩)
      (fun heq => hne (List.cons.inj heq).2) ((hupper q).trans hx)
  · intro q x hq hne hx hleaf
    rw [hat]
    cases q with
    | nil =>
      obtain rfl := Option.some.inj hx
      rw [hus] at hleaf
      cases hleaf
    | cons j q =>
      obtain ⟨rfl, hrest⟩ := List.cons_prefix_cons.mp hq
      exact hlaid.dropped q x hrest (fun heq => hne (heq ▸ rfl)) ((hupper q).symm.trans hx) hleaf

/-- Below a key that a mapping lacks, what stood there still does. -/
theorem laidAt_cons_of_none {us : Entries Slot} {k : Atom} (hR : h.IsDomain R)
    (hlower : ∀ s ∈ lower, s.In R) (hg : Grown h h' R R₁) (hus : u.entries? t = some us)
    (hk : us.find? k = none)
    (hr : (h'.entries? r).bind (Entries.find? k) = (lower.bind h.entries?).bind (Entries.find? k)) :
    u.LaidAt h lower t h' r (k :: path) := by
  -- The upper value has nothing at the path, so that of the four clauses only what is kept says
  -- something.
  have hupper : ∀ q, u.at? t (k :: q) = none := by
    intro q
    rw [at?, hus, Option.bind_some, hk, Option.bind_none]
  have hin : ∀ s ∈ (lower.bind h.entries?).bind (Entries.find? k), s.In R := by
    intro s hs
    have hunder : h.under lower [k] = some s := by
      rw [under_cons, Option.mem_def.mp hs]
      rfl
    exact hR.under hlower hunder
  have hat : h'.at? r (k :: path) = h.under lower (k :: path) := by
    rw [at?, hr, under_cons]
    refine Option.bind_congr fun s hs => ?_
    exact at?_congr hR (fun addr haddr => hg.get?_eq addr (hR.lt_size addr haddr)) (hin s hs) path
  refine ⟨fun x hx _ => ?_, fun x vs es hx _ _ => ?_, fun _ _ => ⟨hat, fun s hs => ?_⟩, ?_⟩
  · cases (hupper path).symm.trans hx
  · cases (hupper path).symm.trans hx
  · exact hg.view_eq hR (hR.under hlower (hat.symm.trans hs))
  · intro q x hq hne hx hleaf
    cases q with
    | nil =>
      obtain rfl := Option.some.inj hx
      rw [hus] at hleaf
      cases hleaf
    | cons j q =>
      obtain ⟨rfl, -⟩ := List.cons_prefix_cons.mp hq
      cases (hupper q).symm.trans hx

/-- What a merge puts under a key has the upper slot laid over what stood there. -/
theorem MergesAt.laidAt (hat : u.MergesAt h lower t s h') (hR : h.IsDomain R)
    (hlower : ∀ s ∈ lower, s.In R) (hkeyed : u.Keyed t) (path : List Atom) :
    u.LaidAt h lower t h' s path := by
  -- Down the path: what stands under its first key came of a merge of what the two had there.
  induction path generalizing h R lower t s h' with
  | nil =>
    cases hat with
    | copied hone => exact laidAt_copyFrom hone []
    | @merged base us ms h₁ hbase hus hms =>
      have hunder : (h.under lower []).bind h.entries? = some base := by
        cases lower <;> exact hbase
      refine ⟨fun w hw hone => ?_, fun w vs es hw hvs hes => ?_, nofun, fun q w hq hne _ _ => ?_⟩
      · obtain rfl := Option.some.inj hw
        simp [hunder, hus] at hone
      · obtain rfl := Option.some.inj hw
        obtain rfl := Option.some.inj (hus.symm.trans hvs)
        obtain rfl := Option.some.inj (hunder.symm.trans hes)
        exact ⟨_, ms, rfl, entries?_alloc h₁ ms, hms.keys_eq (hkeyed [] t us rfl hus)⟩
      · exact absurd (List.prefix_nil.mp hq) hne
  | cons k rest ih =>
    cases hat with
    | copied hone => exact laidAt_copyFrom hone (k :: rest)
    | @merged base us ms h₁ hbase hus hms =>
      have hin : ∀ e ∈ base, e.2.In R := by
        obtain ⟨low, hlow, hentries⟩ := Option.bind_eq_some_iff.mp hbase
        exact hR.entries (hlower low hlow) hentries
      have hfound := find?_in hin k
      obtain ⟨R', hg, hmerged⟩ := hms.grown hR hin
      have hnew := hg.domain.grown_alloc (c := .map ms) (List.forall_mem_map.mpr hmerged)
      rcases hk : us.find? k with _ | w
      · refine laidAt_cons_of_none hR hlower (hg.trans hnew) hus hk ?_
        rw [entries?_alloc, hbase]
        exact hms.find?_of_none hk
      · obtain ⟨h₂, R₂, r, h₃, A, A', hg₂, hat, hfind, hA, hr, hlast⟩ :=
          hms.find?_of_some hR hin (hkeyed [] t us rfl hus) hk
        have hlaid := ih hat hg₂.domain (fun s hs => (hfound s hs).mono hg₂.subset)
          (hkeyed.of_find? hus hk)
        refine LaidAt.cons (s := r) ?_ hus hk ?_
        · rw [hbase]
          exact hlaid.grown hR hfound hg₂ hA hr (hlast.trans (hnew.stay hlast.domain))
        · rw [entries?_alloc]
          exact hfind

end Heap

namespace Overlay

variable {h : Heap} {R : Set Addr} {base upper : Slot}

/-- A merge of two mappings is laid as the paths tell, and ends if no container of the upper one
stands in itself. A merge into a config by a provider whose values are the upper mapping or a copy
of it, also one that fails to tell their names, leaves the config with the entries of that merge in
their order; where no container of the config stands in itself the two are read off alike. -/
theorem merge_by_paths (hR : h.IsDomain R) (hbase : base.In R) (hupper : upper.In R)
    (hmap : (h.entries? base).isSome = true) (hmap' : (h.entries? upper).isSome = true)
    (hkeyed : h.Keyed upper) :
    ((h.view upper).Straight → ∃ r h', h.merge base upper = some (r, h')) ∧
    ∀ r h', h.merge base upper = some (r, h') →
      (∀ path, h.LaidAt h (some base) upper h' r path) ∧
      ∀ place exempt log, h.Mirrors (h.reach upper) place h →
        let after :=
          (((managed (upper.moved place) exempt).mergeMap base).run.run ⟨h, log⟩).2.heap
        after.entries? base = h'.entries? r ∧
          ((h.view base).Straight → after.view base = h'.view r) := by
  obtain ⟨lower, hlower⟩ := Option.isSome_iff_exists.mp hmap
  obtain ⟨us, hus⟩ := Option.isSome_iff_exists.mp hmap'
  have hin := hR.entries hbase hlower
  have hbaseIn : ∀ s ∈ some base, s.In R := by
    rintro s ⟨⟩
    exact hbase
  constructor
  · intro hstraight
    obtain ⟨-, hinner⟩ := Heap.view_of_entries? hR hupper hus hstraight
    obtain ⟨merged, h', hmerge⟩ :=
      Heap.exists_mergeFrom hR (hR.entries hupper hus) hinner h lower
    exact ⟨_, _, Heap.merge_eq_some hlower hus hmerge⟩
  · intro r h' hrun
    obtain ⟨lower', us', merged, h₁, hlower', hus', hmerge, rfl, rfl⟩ :=
      Heap.exists_of_merge_eq_some hrun
    obtain rfl := Option.some.inj (hlower.symm.trans hlower')
    obtain rfl := Option.some.inj (hus.symm.trans hus')
    have hm := Heap.merges_of_mergeIn hmerge
    obtain ⟨R', hg, hmerged⟩ := hm.grown hR hin
    refine ⟨Heap.MergesAt.laidAt (.merged hlower hus hm) hR hbaseIn hkeyed,
      fun place exempt log hplace => ?_⟩
    -- The managed values stand elsewhere on the heap, and the merge of them there makes the same
    -- change; it writes the merged entries into the config's own cell.
    cases base with
    | atom a => cases hlower
    | ref addr =>
      have hlaid : (((managed upper exempt).mergeMap (.ref addr)).run.run ⟨h, log⟩).2.heap =
          h₁.write addr (.map merged) := (run_mergeMap_laid exempt hlower hus hmerge).1
      rw [run_mergeMap] at hlaid
      dsimp only
      rw [run_mergeMap, layOver_moved hplace (h.in_reach upper), hlaid]
      constructor
      · rw [Heap.entries?_alloc, Heap.entries?_write ((hR.lt_size addr hbase).trans_le hm.size_le)]
      · intro hstraight
        rw [view_write_of_merges hm hR hbase hlower hstraight, Heap.view_alloc hg.domain hmerged]

end Overlay

namespace TwoMappings

/-- A mapping with mappings under a number and under two texts, and one that is laid over it, with
its first mapping under the same number spelled as a truth value. -/
def heap : Heap := ⟨#[
  .map [(.int 1, .ref 1), (.text "kept", .ref 3), (.text "lost", .ref 4)],
  .map [(.text "x", .atom (.int 1)), (.text "y", .ref 2)],
  .list [.atom (.int 2)],
  .map [(.text "z", .atom (.int 3))],
  .map [(.text "z", .atom (.int 4))],
  .map [(.text "new", .ref 6), (.bool true, .ref 7), (.text "lost", .atom .null)],
  .map [],
  .map [(.text "w", .atom (.int 5)), (.text "y", .ref 8)],
  .list [.atom (.int 6)]]⟩

/-- The slot of the lower mapping. -/
def base : Slot := .ref 0

/-- The slot of the upper mapping. -/
def upper : Slot := .ref 5

/-- The heap after a merge into the lower mapping itself. -/
def after : Heap := (((Overlay.managed upper []).mergeMap base).run.run ⟨heap, []⟩).2.heap

/-- No container of the lower mapping stands in itself. -/
theorem straight_base : (heap.view base).Straight := by
  have hitems : (Value.list [.atom (.int 2)]).Straight :=
    .list (List.forall_mem_singleton.mpr (.atom _))
  have hother : ∀ n, (Value.map [(.text "z", .atom (.int n))]).Straight :=
    fun n => .map (List.forall_mem_singleton.mpr (.atom _))
  refine .map (List.forall_mem_cons.mpr ⟨.map ?_, List.forall_mem_cons.mpr ⟨hother 3,
    List.forall_mem_singleton.mpr (hother 4)⟩⟩)
  exact List.forall_mem_cons.mpr ⟨.atom _, List.forall_mem_singleton.mpr hitems⟩

/-- No container of the upper mapping stands in itself. -/
theorem straight_upper : (heap.view upper).Straight := by
  have hitems : (Value.list [.atom (.int 6)]).Straight :=
    .list (List.forall_mem_singleton.mpr (.atom _))
  refine .map (List.forall_mem_cons.mpr ⟨.map nofun, List.forall_mem_cons.mpr ⟨.map ?_,
    List.forall_mem_singleton.mpr (.atom _)⟩⟩)
  exact List.forall_mem_cons.mpr ⟨.atom _, List.forall_mem_singleton.mpr hitems⟩

/-- Under the key that both have, its spelling and its place are those of the lower mapping, with
the new key behind; a list is replaced, what is not touched stays, nothing stands below a mapping
that was replaced, and the config is left like the merge. -/
theorem laid_path_by_path : ∃ r h', heap.merge base upper = some (r, h') ∧
    (∃ s ms, h'.at? r [] = some s ∧ h'.entries? s = some ms ∧
      ms.keys = [.int 1, .text "kept", .text "lost", .text "new"]) ∧
    (∃ s ms, h'.at? r [.int 1] = some s ∧ h'.entries? s = some ms ∧
      ms.keys = [.text "x", .text "y", .text "w"]) ∧
    (∃ s, h'.at? r [.int 1, .text "y"] = some s ∧ h'.view s = .list [.atom (.int 6)]) ∧
    h'.at? r [.text "kept", .text "z"] = some (.atom (.int 3)) ∧
    h'.at? r [.text "lost", .text "z"] = none ∧
    after.entries? base = h'.entries? r ∧
    after.view base = h'.view r := by
  have hR := Heap.isDomain_of_isClosed (show heap.isClosed = true by decide)
  have hbase : base.In {addr | addr < heap.cells.size} := show 0 < 9 by decide
  have hupper : upper.In {addr | addr < heap.cells.size} := show 5 < 9 by decide
  obtain ⟨hends, hmerge⟩ := Overlay.merge_by_paths hR hbase hupper rfl rfl
    (Heap.keyed_of_isKeyed (by decide +kernel) upper)
  have hplace := (hR.reach hupper).mirrors fun _ _ => rfl
  obtain ⟨r, h', hrun⟩ := hends straight_upper
  obtain ⟨hlaid, hconfig⟩ := hmerge r h' hrun
  refine ⟨r, h', hrun, ?_, ?_, ?_, ?_, ?_, 
    (hconfig some [] [] hplace).1, (hconfig some [] [] hplace).2 straight_base⟩
  · exact (hlaid []).merged _ _ _ rfl rfl rfl
  · exact (hlaid [.int 1]).merged _ _ _ rfl rfl rfl
  · exact (hlaid [.int 1, .text "y"]).replaced _ rfl (.inl rfl)
  · refine ((hlaid [.text "kept", .text "z"]).kept rfl fun q w hq hne hw => ?_).1
    -- On the way the upper mapping itself stands, and then nothing.
    rcases List.prefix_cons_iff.mp hq with rfl | ⟨q, rfl, hrest⟩
    · obtain rfl := Option.some.inj hw
      rfl
    · rcases List.prefix_cons_iff.mp hrest with rfl | ⟨q, rfl, hend⟩
      · cases hw
      · exact absurd (by rw [List.prefix_nil.mp hend]) hne
  · exact (hlaid [.text "lost", .text "z"]).dropped [.text "lost"] _ (List.prefix_append _ _)
      (by simp) rfl rfl

end TwoMappings
end Stratum
