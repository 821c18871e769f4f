import Stratum.Overlay
import Stratum.Proofs.Act
import Stratum.Proofs.Heap.Merge

/-!
# What a merge does to the heap

A merge makes cells and changes one, the top of the config that it is given. The new cells lead to
one another and to what the config leads to, so that nothing of the managed values gets into it; and
at a path that the managed values do not name the config still has what it had.
-/

namespace Stratum

namespace Heap

/-! ## What entries name -/

/-- Whether a slot decides what stands at a path of keys when it is laid over a mapping: it has
something there, or something on the way that is no mapping. -/
def names (h : Heap) (s : Slot) : (path : List Atom) → Bool
  | [] => true
  | k :: rest =>
    match h.entries? s with
    | none => true
    | some es => es.any fun e => e.1.sameKey k && h.names e.2 rest

/-- Whether one of some entries is under a key and decides what stands at a path below it. -/
def namesIn (h : Heap) (es : Entries Slot) (k : Atom) (path : List Atom) : Bool :=
  es.any fun e => e.1.sameKey k && h.names e.2 path

variable {h h' u u' : Heap} {R C : Set Addr} {place : Addr → Option Addr}
  {lower upper merged : Entries Slot} {k : Atom} {path : List Atom} {s t : Slot}

/-- At a path that a slot does not name it has nothing. -/
theorem at?_of_not_names (hnames : u.names t path = false) : u.at? t path = none := by
  induction path generalizing t with
  | nil => cases hnames
  | cons k rest ih =>
    rw [names] at hnames
    rw [at?]
    rcases hes : u.entries? t with _ | es
    · rfl
    · rw [hes] at hnames
      rcases hfind : Entries.find? k es with _ | s
      · rw [Option.bind_some, hfind]
        rfl
      · obtain ⟨e, he, hkey, rfl⟩ := Entries.exists_of_find? hfind
        rw [Option.bind_some, hfind]
        have hnone := List.any_eq_false.mp hnames e he
        exact ih (by simpa [hkey] using hnone)

/-- A slot that does not name a path below its top is a mapping, of which no entry under the first
key names the rest. -/
theorem entries?_of_not_names (hnames : u.names t path = false) :
    ∃ k rest es, path = k :: rest ∧ u.entries? t = some es ∧ u.namesIn es k rest = false := by
  cases path with
  | nil => cases hnames
  | cons k rest =>
    rw [names] at hnames
    rcases hes : u.entries? t with _ | es
    · rw [hes] at hnames
      cases hnames
    · rw [hes] at hnames
      exact ⟨k, rest, es, rfl, rfl, hnames⟩

/-- What stands again elsewhere names the same there. -/
theorem Mirrors.names_eq (hm : h.Mirrors C place h') (hs : s.In C) (path : List Atom) :
    h'.names (s.moved place) path = h.names s path := by
  induction path generalizing s with
  | nil => rfl
  | cons k rest ih =>
    rw [names, names, hm.entries?_eq hs]
    rcases hes : h.entries? s with _ | es
    · rfl
    · dsimp only [Option.map_some]
      rw [List.any_map, Bool.eq_iff_iff, List.any_eq_true, List.any_eq_true]
      refine exists_congr fun e => and_congr_right fun he => ?_
      rw [Function.comp_apply, ih (hm.entries_in hs hes e he)]

/-- The entries of what stands again elsewhere name the same there. -/
theorem Mirrors.namesIn_eq (hm : h.Mirrors C place h') (hs : s.In C) (k : Atom)
    (path : List Atom) :
    h'.namesIn ((h'.entries? (s.moved place)).getD []) k path =
      h.namesIn ((h.entries? s).getD []) k path := by
  have hnames := hm.names_eq hs (k :: path)
  rw [names, names, hm.entries?_eq hs] at hnames
  rw [hm.entries?_eq hs]
  rcases hes : h.entries? s with _ | es
  · rfl
  · rw [hes] at hnames
    exact hnames

/-! ## What stays -/

/-- At a path under a key that the upper entries do not name, a merge leaves what stood there. -/
theorem Merges.at?_of_not_names (hm : u.Merges h lower upper merged h') (hR : h.IsDomain R)
    (hlower : ∀ e ∈ lower, e.2.In R) (hnames : u.namesIn upper k path = false) :
    (merged.find? k).bind (h'.at? · path) = (lower.find? k).bind (h.at? · path) := by
  -- By induction on the merge: where its first entry goes is the key of the path or another one,
  -- and the rest of it leaves what the first has put.
  induction hm generalizing R k path with
  | nil => rfl
  | @copied h h' lower rest merged j t hone hrest ih =>
    obtain ⟨hfirst, hothers⟩ := Bool.or_eq_false_iff.mp hnames
    obtain ⟨R₁, hg, hin⟩ := copyFrom_grown hR u t
    rw [ih hg.domain (put_in (fun e he => (hlower e he).mono hg.subset) hin j) hothers]
    by_cases hkey : k.form = j.form
    · -- There was no mapping to lay anything over, and the copy has nothing at the path.
      have hsame : j.sameKey k = true := by simp [hkey]
      have hnot : u.names t path = false := by simpa [hsame] using hfirst
      obtain ⟨k', rest', es, rfl, hes, -⟩ := entries?_of_not_names hnot
      have hbase := hone.resolve_right (by simp [hes])
      have hcopy : (h.copyFrom u t).2.at? (h.copyFrom u t).1 (k' :: rest') = none := by
        have hat := (h.mirrors_copyFrom u t).at?_eq (u.in_reach t) (k' :: rest')
        rwa [Heap.at?_of_not_names hnot] at hat
      rw [Entries.find?_put_of_sameKey hkey, Option.bind_some, hcopy,
        Entries.find?_of_sameKey hkey]
      rcases hfind : lower.find? j with _ | s
      · rfl
      · rw [hfind, Option.bind_some] at hbase
        rw [Option.bind_some, at?, hbase]
        rfl
    · rw [Entries.find?_put_of_ne hkey]
      refine Option.bind_congr fun s hs => ?_
      exact at?_congr hR (fun addr haddr => hg.get?_eq addr (hR.lt_size addr haddr))
        (find?_in hlower k s hs) path
  | @merged h h₁ h' lower rest base es ms merged j t hbase hes hms hrest ih ihrest =>
    obtain ⟨hfirst, hothers⟩ := Bool.or_eq_false_iff.mp hnames
    obtain ⟨low, hlow, hentries⟩ := Option.bind_eq_some_iff.mp hbase
    have hlowin := hR.entries (find?_in hlower j low hlow) hentries
    obtain ⟨R₁, hg, hmade⟩ := hms.grown hR hlowin
    have hnew := hg.domain.grown_alloc (c := .map ms) (List.forall_mem_map.mpr hmade)
    have hg₁ := hg.trans hnew
    rw [ihrest hg₁.domain
      (put_in (fun e he => (hlower e he).mono hg₁.subset) (Set.mem_insert _ _) j) hothers]
    by_cases hkey : k.form = j.form
    · -- The mapping is merged below the key, where the rest of the path is not named either.
      have hsame : j.sameKey k = true := by simp [hkey]
      have hnot : u.names t path = false := by simpa [hsame] using hfirst
      obtain ⟨k', rest', _, rfl, hes', hnot'⟩ := entries?_of_not_names hnot
      obtain rfl := Option.some.inj (hes.symm.trans hes')
      rw [Entries.find?_put_of_sameKey hkey, Entries.find?_of_sameKey hkey,
        Option.mem_def.mp hlow, Option.bind_some, Option.bind_some, at?, at?, hentries,
        Option.bind_some, ← ih hR hlowin hnot', entries?, get?_alloc, Option.bind_some]
      refine Option.bind_congr fun s hs => ?_
      exact at?_congr hg.domain (fun addr haddr => hnew.get?_eq addr (hg.domain.lt_size addr haddr))
        (find?_in hmade k' s hs) rest'
    · rw [Entries.find?_put_of_ne hkey]
      refine Option.bind_congr fun s hs => ?_
      exact at?_congr hR (fun addr haddr => hg₁.get?_eq addr (hR.lt_size addr haddr))
        (find?_in hlower k s hs) path

end Heap

namespace Overlay

/-! ## Laying values over a config -/

/-- The managed values in a slot, by their keys. -/
def managedEntries (values : Slot) (h : Heap) : Entries Slot := (h.entries? values).getD []

/-- What laying entries of `u` over a config leaves alone of the heap. -/
structure Spares (u : Heap) (upper : Entries Slot) (config : Slot) (h h' : Heap) : Prop where
  /-- No cell is changed but the top of the config. -/
  cells : ∀ addr < h.cells.size, config ≠ .ref addr → h'.get? addr = h.get? addr
  /-- The config leads to new cells and to those that it led to before. -/
  reach : ∀ addr ∈ h'.reach config, addr ∈ h.reach config ∨ h.cells.size ≤ addr
  /-- A path that the entries do not name, under a key from which the config itself is not reached,
  still leads to the same slot, and what is in it is the same. -/
  paths : ∀ k rest, u.namesIn upper k rest = false →
    (∀ s addr, h.at? config [k] = some s → config = .ref addr → addr ∉ h.reach s) →
    h'.at? config (k :: rest) = h.at? config (k :: rest) ∧
      ∀ s, h.at? config (k :: rest) = some s → h'.view s = h.view s

variable {u h h' h₁ : Heap} {R R' : Set Addr} {config values : Slot}
  {lower upper merged : Entries Slot} {addr : Addr} {exempt : List String} {st : Store}

/-- Nothing done leaves everything alone. -/
theorem Spares.refl (u : Heap) (upper : Entries Slot) (config : Slot) (h : Heap) :
    Spares u upper config h h :=
  ⟨fun _ _ _ => rfl, fun _ => .inl, fun _ _ _ _ => ⟨rfl, fun _ _ => rfl⟩⟩

/-- What is left alone depends on what the entries name only. -/
theorem Spares.congr (hspares : Spares u upper config h h') {u' : Heap} {upper' : Entries Slot}
    (hnames : ∀ k rest, u'.namesIn upper' k rest = u.namesIn upper k rest) :
    Spares u' upper' config h h' :=
  ⟨hspares.cells, hspares.reach, fun k rest hnot => hspares.paths k rest (hnames k rest ▸ hnot)⟩

/-- Growth afterwards leaves alone what was. -/
theorem Spares.grown (hspares : Spares u upper config h h') (hsize : h.cells.size ≤ h'.cells.size)
    (hR : h'.IsDomain R) (hconfig : config.In R) {h'' : Heap} (hg : Heap.Grown h' h'' R R') :
    Spares u upper config h h'' := by
  have hsame : ∀ addr ∈ R, h''.get? addr = h'.get? addr :=
    fun addr haddr => hg.get?_eq addr (hR.lt_size addr haddr)
  have hreach : h''.reach config ⊆ h'.reach config :=
    (hg.isDomain (hR.reach hconfig)).reach_subset (h'.in_reach config)
  refine ⟨?_, fun addr haddr => hspares.reach addr (hreach haddr), ?_⟩
  · intro addr hlt hne
    rw [hg.get?_eq addr (hlt.trans_le hsize), hspares.cells addr hlt hne]
  · intro k rest hnames haway
    obtain ⟨hpath, hview⟩ := hspares.paths k rest hnames haway
    constructor
    · calc h''.at? config (k :: rest)
        _ = h'.at? config (k :: rest) := Heap.at?_congr hR hsame hconfig _
        _ = h.at? config (k :: rest) := hpath
    · intro s hs
      have hin : s.In R := hR.at? hconfig (hpath.trans hs)
      calc h''.view s
        _ = h'.view s := Heap.view_congr hR hsame hin
        _ = h.view s := hview s hs

/-- The cells that are reached from what stands under a key. -/
def reachUnder (h : Heap) (es : Entries Slot) (k : Atom) : Set Addr :=
  {addr | ∃ s ∈ es.find? k, h.Reaches s addr}

/-- What is reached from what stands under a key of a domain's entries is a domain. -/
theorem isDomain_reachUnder (hR : h.IsDomain R) (hlower : ∀ e ∈ lower, e.2.In R) (k : Atom) :
    h.IsDomain (reachUnder h lower k) := by
  refine Heap.isDomain_of_reaches ?_ ?_
  · rintro addr ⟨s, hs, hreach⟩
    exact hR.lt_size addr (hR.reach_subset (Heap.find?_in hlower k s hs) hreach)
  · rintro addr ⟨s, hs, hreach⟩ other hother
    exact ⟨s, hs, hreach.trans hother⟩

section Laid

variable (hm : u.Merges h lower upper merged h₁) (hR : h.IsDomain R) (haddr : (Slot.ref addr).In R)
  (hlower : h.entries? (.ref addr) = some lower)
include hm hR haddr hlower

/-- Entries laid over a config make cells and change its top. -/
theorem changed_of_merges : ∃ R', Heap.Changed h (h₁.write addr (.map merged)) R R' := by
  obtain ⟨R', hg, hmerged⟩ := hm.grown hR (hR.entries haddr hlower)
  have hwrite := hg.domain.changed_write (c := .map merged) (hg.subset haddr)
    (List.forall_mem_map.mpr hmerged)
  exact ⟨R', hg.changed.trans hwrite⟩

/-- Entries laid over a config change no cell but its top. -/
theorem get?_of_merges {other : Addr} (hother : other < h.cells.size) (hne : other ≠ addr) :
    (h₁.write addr (.map merged)).get? other = h.get? other := by
  obtain ⟨R', hg, -⟩ := hm.grown hR (hR.entries haddr hlower)
  calc (h₁.write addr (.map merged)).get? other
    _ = h₁.get? other := Heap.get?_write_of_ne _ _ hne.symm
    _ = h.get? other := hg.get?_eq other hother

/-- At a path that is not named, under a key from which the top of the config is not reached,
entries laid over the config leave what stood there as it was. -/
theorem paths_of_merges {k : Atom} {rest : List Atom} (hnames : u.namesIn upper k rest = false)
    (haway : addr ∉ reachUnder h lower k) :
    (h₁.write addr (.map merged)).at? (.ref addr) (k :: rest) = h.at? (.ref addr) (k :: rest) ∧
      ∀ s, h.at? (.ref addr) (k :: rest) = some s →
        (h₁.write addr (.map merged)).view s = h.view s := by
  have hlt : addr < h.cells.size := hR.lt_size addr haddr
  have hin := hR.entries haddr hlower
  -- What is reached from under the key is a domain of its own, without the top of the config.
  have hB := isDomain_reachUnder hR hin k
  have hinB : ∀ s ∈ lower.find? k, s.In (reachUnder h lower k) := fun s hs =>
    (h.in_reach s).mono fun other hother => ⟨s, hs, hother⟩
  constructor
  · obtain ⟨B, hgB, hmergedB⟩ := hm.find?_grown hR hin hB hinB
    have hwrite : ∀ other ∈ B, (h₁.write addr (.map merged)).get? other = h₁.get? other := by
      intro other hother
      refine Heap.get?_write_of_ne _ _ ?_
      rintro rfl
      rcases hgB.new addr hother with hmem | hle
      · exact haway hmem
      · exact absurd hlt (Nat.not_lt.mpr hle)
    rw [Heap.at?, Heap.at?, Heap.entries?_write (hlt.trans_le hm.size_le), hlower,
      Option.bind_some, Option.bind_some, ← hm.at?_of_not_names hR hin hnames]
    refine Option.bind_congr fun s hs => ?_
    exact Heap.at?_congr hgB.domain hwrite (hmergedB s hs) rest
  · intro s hs
    have hsame : ∀ other ∈ reachUnder h lower k,
        (h₁.write addr (.map merged)).get? other = h.get? other := fun other hother =>
      get?_of_merges hm hR haddr hlower (hB.lt_size other hother) fun heq => haway (heq ▸ hother)
    rw [Heap.at?, hlower, Option.bind_some] at hs
    obtain ⟨t, ht, hs⟩ := Option.bind_eq_some_iff.mp hs
    exact Heap.view_congr hB hsame (hB.at? (hinB t ht) hs)

/-- What entries laid over a config leave alone. -/
theorem spares_of_merges :
    Spares u upper (.ref addr) h (h₁.write addr (.map merged)) := by
  refine ⟨fun other hother hne => ?_, fun other hother => ?_, fun k rest hnames haway => ?_⟩
  · exact get?_of_merges hm hR haddr hlower hother fun heq => hne (heq ▸ rfl)
  · -- What the config leads to is a domain, and the config leads into what it grows to.
    obtain ⟨B, hc⟩ := changed_of_merges hm (hR.reach haddr) (h.in_reach _) hlower
    have hconfig : (Slot.ref addr).In B := (h.in_reach (.ref addr)).mono hc.subset
    exact hc.new other (hc.domain.reach_subset hconfig hother)
  · refine paths_of_merges hm hR haddr hlower hnames ?_
    rintro ⟨s, hs, hreach⟩
    refine haway s addr ?_ rfl hreach
    rw [Heap.at?, hlower, Option.bind_some, Option.mem_def.mp hs]
    rfl

end Laid

/-! ## Values that stand again elsewhere -/

section Mirrors

variable {C : Set Addr} {place : Addr → Option Addr} {u' : Heap} (hm : u.Mirrors C place u')
  (hvalues : values.In C)
include hm hvalues

/-- Managed values that stand again elsewhere have the same entries, but for where they lead. -/
theorem managedEntries_moved : managedEntries (values.moved place) u' =
    (managedEntries values u).map fun (k, t) => (k, t.moved place) := by
  rw [managedEntries, managedEntries, hm.entries?_eq hvalues]
  rcases u.entries? values with _ | es <;> rfl

/-- They have the same keys. -/
theorem keys_managedEntries_moved :
    (managedEntries (values.moved place) u').keys = (managedEntries values u).keys := by
  rw [managedEntries_moved hm hvalues]
  simp [Entries.keys]

/-- They are merged to the same. -/
theorem mergeFrom_managedEntries_moved (h : Heap) (lower : Entries Slot) :
    h.mergeFrom u' lower (managedEntries (values.moved place) u') =
      h.mergeFrom u lower (managedEntries values u) := by
  have hin : ∀ e ∈ managedEntries values u, e.2.In C := by
    unfold managedEntries
    rcases hes : u.entries? values with _ | es
    · exact fun e he => absurd he List.not_mem_nil
    · exact hm.entries_in hvalues hes
  rw [managedEntries_moved hm hvalues, hm.mergeFrom_eq hin]

/-- Laying them over a config is the same. -/
theorem layOver_moved (config : Slot) :
    layOver u' (values.moved place) config = layOver u values config := by
  have hmerge := mergeFrom_managedEntries_moved hm hvalues
  have hkeys := keys_managedEntries_moved hm hvalues
  unfold managedEntries at hmerge hkeys
  unfold layOver
  simp only [hmerge, hkeys]

end Mirrors

/-! ## Merging into a config -/

/-- Entries laid over a mapping are merged into it, and their names are told, which only a number
that is too long among them prevents. A merge that would never end does nothing. -/
theorem run_layOver_mapping (u : Heap) (values : Slot)
    (hlower : st.heap.entries? (.ref addr) = some lower) :
    (layOver u values (.ref addr)).run.run st =
      let upper := managedEntries values u
      match st.heap.mergeFrom u lower upper with
      | none => (.error .endless, st)
      | some (merged, heap) =>
        let heap := heap.write addr (.map merged)
        match appliedText upper.keys with
        | .ok text => (.ok (), ⟨heap, st.log ++ [⟨.debug, topic, text⟩]⟩)
        | .error fault => (.error (.number fault), ⟨heap, st.log⟩) := by
  have hlook : (Act.look (·.entries? (.ref addr))).run.run st = (.ok (some lower), st) :=
    congrArg (fun es => (Except.ok es, st)) hlower
  unfold layOver
  rw [Act.run_bind, hlook]
  dsimp only
  rw [Act.run_bind, Act.run_makeOr]
  unfold managedEntries
  rcases st.heap.mergeFrom u lower ((u.entries? values).getD []) with _ | ⟨merged, heap⟩
  · rfl
  · dsimp only
    rcases appliedText (Entries.keys ((u.entries? values).getD [])) with fault | text <;> rfl

/-- Entries laid over anything else do nothing. -/
theorem run_layOver_other (u : Heap) (values : Slot) (hnone : st.heap.entries? config = none) :
    (layOver u values config).run.run st = (.ok (), st) := by
  have hlook : (Act.look (·.entries? config)).run.run st = (.ok none, st) :=
    congrArg (fun es => (Except.ok es, st)) hnone
  unfold layOver
  rw [Act.run_bind, hlook]
  cases config <;> rfl

/-- A provider lays its values over a config as they stand. -/
theorem run_mergeMap (values : Slot) (exempt : List String) (config : Slot) (st : Store) :
    ((managed values exempt).mergeMap config).run.run st =
      (layOver st.heap values config).run.run st := by
  have hlook : (Act.look id).run.run st = (.ok st.heap, st) := rfl
  unfold mergeMap
  dsimp only
  rw [Act.run_bind, hlook]

/-- A merge into a mapping lays the managed values over it, as they stand. -/
theorem run_mergeMap_mapping (values : Slot) (exempt : List String)
    (hlower : st.heap.entries? (.ref addr) = some lower) :
    ((managed values exempt).mergeMap (.ref addr)).run.run st =
      let upper := managedEntries values st.heap
      match st.heap.mergeEntries lower upper with
      | none => (.error .endless, st)
      | some (merged, heap) =>
        let heap := heap.write addr (.map merged)
        match appliedText upper.keys with
        | .ok text => (.ok (), ⟨heap, st.log ++ [⟨.debug, topic, text⟩]⟩)
        | .error fault => (.error (.number fault), ⟨heap, st.log⟩) := by
  rw [run_mergeMap]
  exact run_layOver_mapping st.heap values hlower

/-- A merge into a mapping that ends leaves the config with the merged entries, whatever becomes of
telling the names of the managed values. -/
theorem run_mergeMap_laid (exempt : List String)
    (hlower : st.heap.entries? (.ref addr) = some lower)
    (hupper : st.heap.entries? values = some upper)
    (hmerge : st.heap.mergeEntries lower upper = some (merged, h₁)) :
    let run := ((managed values exempt).mergeMap (.ref addr)).run.run st
    run.2.heap = h₁.write addr (.map merged) ∧
      run.1 = ((appliedText upper.keys).mapError .number).map fun _ => () := by
  have hmanaged : managedEntries values st.heap = upper := by
    rw [managedEntries, hupper, Option.getD_some]
  dsimp only
  rw [run_mergeMap_mapping values exempt hlower, hmanaged]
  dsimp only
  rw [hmerge]
  dsimp only
  rcases appliedText upper.keys with fault | text <;> exact ⟨rfl, rfl⟩

/-- A merge into anything else does nothing. -/
theorem run_mergeMap_other (values : Slot) (exempt : List String)
    (hnone : st.heap.entries? config = none) :
    ((managed values exempt).mergeMap config).run.run st = (.ok (), st) := by
  rw [run_mergeMap, run_layOver_other st.heap values hnone]

/-- A merge leaves the heap as it is, or lays the managed values over a mapping. -/
theorem heap_mergeMap_cases (values : Slot) (exempt : List String) (config : Slot) (st : Store) :
    (((managed values exempt).mergeMap config).run.run st).2.heap = st.heap ∨
      ∃ addr lower merged heap, config = .ref addr ∧
        st.heap.entries? (.ref addr) = some lower ∧
        st.heap.mergeEntries lower (managedEntries values st.heap) = some (merged, heap) ∧
        (((managed values exempt).mergeMap config).run.run st).2.heap =
          heap.write addr (.map merged) := by
  rcases hentries : st.heap.entries? config with _ | lower
  · rw [run_mergeMap_other values exempt hentries]
    exact .inl rfl
  · cases config with
    | atom a => cases hentries
    | ref addr =>
      rw [run_mergeMap_mapping values exempt hentries]
      dsimp only
      rcases hmerge : st.heap.mergeEntries lower (managedEntries values st.heap) with
        _ | ⟨merged, heap⟩
      · exact .inl rfl
      · refine .inr ⟨addr, lower, merged, heap, rfl, hentries, hmerge, ?_⟩
        dsimp only
        rcases appliedText (managedEntries values st.heap).keys with fault | text <;> rfl

/-- A merge does not fail, unless it would never end or the name of a managed value is a number that
is too long. -/
theorem mergeMap_outcome (o : Overlay) (config : Slot) (st : Store) :
    ((o.mergeMap config).run.run st).1 = .ok () ∨
      ∃ values exempt, o = .managed values exempt ∧
        ((∃ lower, st.heap.entries? config = some lower ∧
            st.heap.mergeEntries lower (managedEntries values st.heap) = none ∧
            ((o.mergeMap config).run.run st).1 = .error .endless) ∨
          ∃ fault, appliedText (managedEntries values st.heap).keys = .error fault ∧
            ((o.mergeMap config).run.run st).1 = .error (.number fault)) := by
  cases o with
  | nothing => exact .inl rfl
  | managed values exempt =>
    rcases hentries : st.heap.entries? config with _ | lower
    · rw [run_mergeMap_other values exempt hentries]
      exact .inl rfl
    · cases config with
      | atom a => cases hentries
      | ref addr =>
        rw [run_mergeMap_mapping values exempt hentries]
        dsimp only
        rcases hmerge : st.heap.mergeEntries lower (managedEntries values st.heap) with
          _ | ⟨merged, heap⟩
        · exact .inr ⟨values, exempt, rfl, .inl ⟨lower, rfl, hmerge, rfl⟩⟩
        · dsimp only
          rcases happlied : appliedText (managedEntries values st.heap).keys with fault | text
          · exact .inr ⟨values, exempt, rfl, .inr ⟨fault, happlied, rfl⟩⟩
          · exact .inl rfl

/-- A mapping is one after a merge. -/
theorem isSome_entries?_mergeMap (o : Overlay) (hconfig : (st.heap.entries? config).isSome = true) :
    (((o.mergeMap config).run.run st).2.heap.entries? config).isSome = true := by
  cases o with
  | nothing => exact hconfig
  | managed values exempt =>
    rcases heap_mergeMap_cases values exempt config st with
      heq | ⟨addr, lower, merged, heap, rfl, hlower, hmerge, heq⟩
    · rwa [heq]
    · have hlt := Heap.lt_size_of_get? (Heap.get?_of_entries? hlower)
      have hm := Heap.merges_of_mergeIn hmerge
      rw [heq, Heap.entries?_write (hlt.trans_le hm.size_le)]
      rfl

/-- A merge changes cells of a domain only that the config leads into. -/
theorem changed_mergeMap (values : Slot) (exempt : List String) (hR : st.heap.IsDomain R)
    (hconfig : config.In R) : ∃ R', Heap.Changed st.heap
      (((managed values exempt).mergeMap config).run.run st).2.heap R R' := by
  rcases heap_mergeMap_cases values exempt config st with
    heq | ⟨addr, lower, merged, heap, rfl, hlower, hmerge, heq⟩
  · rw [heq]
    exact ⟨R, hR.grown.changed⟩
  · rw [heq]
    exact changed_of_merges (Heap.merges_of_mergeIn hmerge) hR hconfig hlower

/-- What a merge leaves alone. -/
theorem spares_mergeMap (values : Slot) (exempt : List String) (hR : st.heap.IsDomain R)
    (hconfig : config.In R) : Spares st.heap (managedEntries values st.heap) config st.heap
      (((managed values exempt).mergeMap config).run.run st).2.heap := by
  rcases heap_mergeMap_cases values exempt config st with
    heq | ⟨addr, lower, merged, heap, rfl, hlower, hmerge, heq⟩
  · rw [heq]
    exact .refl _ _ _ _
  · rw [heq]
    exact spares_of_merges (Heap.merges_of_mergeIn hmerge) hR hconfig hlower

end Overlay
end Stratum
