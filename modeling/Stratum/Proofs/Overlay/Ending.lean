import Mathlib.Combinatorics.Pigeonhole
import Stratum.Proofs.Overlay.Reading

/-!
# When a merge ends

A merge goes down as far as both mappings have mappings under the same keys. It has no end exactly
if there are paths of every length at which both have one (`Heap.merge_eq_none_iff`). So it ends if
no container of the upper mapping stands in itself, whatever the lower one is
(`Heap.exists_mergeFrom`).
-/

namespace Stratum

/-! ## Keys -/

namespace Entries

variable {α : Type} {es : Entries α} {j k : Atom} {v : α}

/-- No two keys are the same. -/
def Distinct (es : Entries α) : Prop := (es.map fun e => e.1.form).Nodup

instance : Decidable es.Distinct := inferInstanceAs (Decidable (es.map fun e => e.1.form).Nodup)

/-- Nothing is found under a key if no key is the same. -/
theorem find?_eq_none_iff : es.find? k = none ↔ ∀ e ∈ es, e.1.form ≠ k.form := by
  induction es with
  | nil => simp [find?]
  | cons e es ih =>
    obtain ⟨a, w⟩ := e
    by_cases hk : a.form = k.form <;> simp [find?, hk, ih]

/-- Of distinct keys the first is found under none of the others. -/
theorem distinct_cons :
    Distinct ((k, v) :: es) ↔ es.find? k = none ∧ es.Distinct := by
  simp only [Distinct, List.map_cons, List.nodup_cons, List.mem_map, not_exists, not_and,
    find?_eq_none_iff]

/-- Under a key that no other entry has an entry is found. -/
theorem find?_of_mem (hes : es.Distinct) (hmem : (k, v) ∈ es) : es.find? k = some v := by
  induction es with
  | nil => cases hmem
  | cons e es ih =>
    obtain ⟨a, w⟩ := e
    obtain ⟨ha, hes⟩ := distinct_cons.mp hes
    rcases List.mem_cons.mp hmem with heq | hmem
    · cases heq
      simp [find?]
    · have hne : a.form ≠ k.form := fun heq => find?_eq_none_iff.mp ha _ hmem heq.symm
      simpa [find?, hne] using ih hes hmem

end Entries

namespace Heap

variable {h h' h₁ u : Heap} {R R₁ U : Set Addr} {lower upper es : Entries Slot} {base s t : Slot}
  {k : Atom} {path p q : List Atom} {depth : Nat}
  {inner : Heap → Entries Slot → Entries Slot → Option (Entries Slot × Heap)}

/-! ## Paths to mappings -/

/-- What stands at a path is found part by part. -/
theorem at?_append (h : Heap) (s : Slot) (p q : List Atom) :
    h.at? s (p ++ q) = (h.at? s p).bind (h.at? · q) := by
  induction p generalizing s with
  | nil => rfl
  | cons k p ih =>
    rw [List.cons_append, at?, at?]
    rcases (h.entries? s).bind (Entries.find? k) with _ | t
    · rfl
    · exact ih t

/-- What stands at a path is reached. -/
theorem reaches_of_at? {addr : Addr} (hat : h.at? s path = some (.ref addr)) :
    h.Reaches s addr := by
  induction path generalizing s with
  | nil =>
    obtain rfl := Option.some.inj hat
    exact .here addr
  | cons k rest ih =>
    obtain ⟨t, ht, hrest⟩ := Option.bind_eq_some_iff.mp hat
    obtain ⟨es, hes, hfind⟩ := Option.bind_eq_some_iff.mp ht
    obtain ⟨e, he, rfl⟩ := Entries.mem_of_find? hfind
    cases s with
    | atom a => cases hes
    | ref other => exact .there (get?_of_entries? hes) (List.mem_map_of_mem he) (ih hrest)

/-- A mapping stands at a path. -/
def MapAt (h : Heap) (s : Slot) (path : List Atom) : Prop :=
  ∃ t es, h.at? s path = some t ∧ h.entries? t = some es

/-- There is a mapping below a key if there is one below what is found under it. -/
theorem mapAt_cons : h.MapAt s (k :: path) ↔
    ∃ es t, h.entries? s = some es ∧ es.find? k = some t ∧ h.MapAt t path := by
  constructor
  · rintro ⟨t, ts, hat, hts⟩
    obtain ⟨next, hnext, hat⟩ := Option.bind_eq_some_iff.mp hat
    obtain ⟨es, hes, hfind⟩ := Option.bind_eq_some_iff.mp hnext
    exact ⟨es, next, hes, hfind, t, ts, hat, hts⟩
  · rintro ⟨es, next, hes, hfind, t, ts, hat, hts⟩
    refine ⟨t, ts, ?_, hts⟩
    rw [at?, hes, Option.bind_some, hfind, Option.bind_some, hat]

/-- On the way to a mapping there are mappings. -/
theorem MapAt.of_append (hmap : h.MapAt s (p ++ q)) : h.MapAt s p := by
  obtain ⟨t, es, hat, hes⟩ := hmap
  rw [at?_append] at hat
  obtain ⟨r, hr, hat⟩ := Option.bind_eq_some_iff.mp hat
  cases q with
  | nil =>
    obtain rfl := Option.some.inj hat
    exact ⟨r, es, hr, hes⟩
  | cons k q =>
    obtain ⟨next, hnext, -⟩ := Option.bind_eq_some_iff.mp hat
    obtain ⟨rs, hrs, -⟩ := Option.bind_eq_some_iff.mp hnext
    exact ⟨r, rs, hr, hrs⟩

/-- What leads to a mapping is one. -/
theorem MapAt.exists_entries? (hmap : h.MapAt s path) : ∃ es, h.entries? s = some es := by
  obtain ⟨t, es, hat, hes⟩ := MapAt.of_append (p := []) hmap
  obtain rfl := Option.some.inj hat
  exact ⟨es, hes⟩

/-- Where mappings stand depends on the cells of a domain only that the path starts in. -/
theorem mapAt_congr (hR : h.IsDomain R) (hsame : ∀ addr ∈ R, h'.get? addr = h.get? addr)
    (hs : s.In R) : h'.MapAt s path ↔ h.MapAt s path := by
  unfold MapAt
  rw [at?_congr hR hsame hs]
  refine exists_congr fun t => exists_congr fun es => and_congr_right fun hat => ?_
  rw [entries?_congr hsame (hR.at? hs hat)]

/-- No two keys of a mapping are the same, wherever a path leads to it. -/
def Keyed (h : Heap) (s : Slot) : Prop :=
  ∀ path t es, h.at? s path = some t → h.entries? t = some es → es.Distinct

/-- Below a key of a mapping no two keys are the same either. -/
theorem Keyed.of_find? (hs : h.Keyed s) (hes : h.entries? s = some es)
    (hfind : es.find? k = some t) : h.Keyed t := by
  intro path r rs hat hrs
  refine hs (k :: path) r rs ?_ hrs
  rw [at?, hes, Option.bind_some, hfind, Option.bind_some, hat]

/-- Which keys there are depends on the cells of a domain only that the path starts in. -/
theorem keyed_congr (hR : h.IsDomain R) (hsame : ∀ addr ∈ R, h'.get? addr = h.get? addr)
    (hs : s.In R) : h'.Keyed s ↔ h.Keyed s := by
  unfold Keyed
  refine forall_congr' fun path => forall_congr' fun t => forall_congr' fun es => ?_
  rw [at?_congr hR hsame hs]
  refine imp_congr_right fun hat => ?_
  rw [entries?_congr hsame (hR.at? hs hat)]

/-- Whether no two keys of a mapping are the same, in whichever cell it is. -/
def isKeyed (h : Heap) : Bool :=
  h.cells.toList.all fun
    | .map es => Entries.Distinct es
    | _ => true

/-- If it is so in every cell it is so wherever a path leads. -/
theorem keyed_of_isKeyed (hkeyed : h.isKeyed = true) (s : Slot) : h.Keyed s := by
  intro path t es hat hes
  cases t with
  | atom a => cases hes
  | ref addr =>
    have hmem := Array.mem_of_getElem? (get?_of_entries? hes)
    exact of_decide_eq_true (List.all_eq_true.mp hkeyed _ (Array.mem_toList_iff.mpr hmem))

/-! ## One step down -/

/-- A merge under a key fails only if a merge of two mappings does. -/
theorem exists_of_mergeAt_eq_none {low : Option Slot} (hnone : mergeAt u inner h low t = none) :
    ∃ base es, low.bind h.entries? = some base ∧ u.entries? t = some es ∧
      inner h base es = none := by
  unfold mergeAt at hnone
  rcases hbase : low.bind h.entries? with _ | base
  · rw [hbase] at hnone
    cases hnone
  · rcases hes : u.entries? t with _ | es
    · rw [hbase, hes] at hnone
      cases hnone
    · rw [hbase, hes] at hnone
      refine ⟨base, es, rfl, rfl, ?_⟩
      rcases hinner : inner h base es with _ | ⟨ms, h₁⟩
      · rfl
      · dsimp only at hnone
        rw [hinner] at hnone
        cases hnone

/-- A merge fails only if one below it does: of a mapping under a key with what a mapping had there
before, if no two keys are the same. -/
theorem exists_of_mergeList_eq_none
    (hinner : ∀ {h lower upper merged h'}, inner h lower upper = some (merged, h') →
      u.Merges h lower upper merged h')
    (hnone : mergeList u inner h lower upper = none) :
    ∃ e ∈ upper, ∃ h₁ base es, u.entries? e.2 = some es ∧ inner h₁ base es = none ∧
      ∀ R, h.IsDomain R → (∀ e ∈ lower, e.2.In R) → upper.Distinct →
        (lower.find? e.1).bind h.entries? = some base ∧ ∃ R₁, Grown h h₁ R R₁ := by
  induction upper generalizing h lower with
  | nil => cases hnone
  | cons e rest ih =>
    obtain ⟨k, t⟩ := e
    rw [mergeList] at hnone
    rcases hat : mergeAt u inner h (lower.find? k) t with _ | ⟨s, h₁⟩
    · obtain ⟨base, es, hbase, hes, hfails⟩ := exists_of_mergeAt_eq_none hat
      exact ⟨(k, t), List.mem_cons_self, h, base, es, hes, hfails,
        fun R hR _ _ => ⟨hbase, R, hR.grown⟩⟩
    · rw [hat] at hnone
      obtain ⟨e, he, h₂, base, es, hes, hfails, hbelow⟩ := ih hnone
      refine ⟨e, List.mem_cons_of_mem _ he, h₂, base, es, hes, hfails, fun R hR hlower hkeys => ?_⟩
      obtain ⟨hk, hrest⟩ := Entries.distinct_cons.mp hkeys
      obtain ⟨R₁, hg, hin⟩ := (mergesAt_of_mergeAt hinner hat).grown hR (find?_in hlower k)
      obtain ⟨hbase, R₂, hg'⟩ := hbelow R₁ hg.domain
        (put_in (fun e he => (hlower e he).mono hg.subset) hin k) hrest
      -- What the first entry put is under another key, and changed nothing that was there.
      rw [Entries.find?_put_of_ne (Entries.find?_eq_none_iff.mp hk e he)] at hbase
      refine ⟨hbase ▸ Option.bind_congr fun s hs => ?_, R₂, hg.trans hg'⟩
      exact (entries?_congr (fun addr haddr => hg.get?_eq addr (hR.lt_size addr haddr))
        (find?_in hlower e.1 s hs)).symm

/-- A merge fails if one below it does, whatever was made before. -/
theorem mergeList_eq_none_of_find? {low es : Entries Slot}
    (hinner : ∀ {h lower upper merged h'}, inner h lower upper = some (merged, h') →
      u.Merges h lower upper merged h')
    (hR : h.IsDomain R) (hlower : ∀ e ∈ lower, e.2.In R) (hs : lower.find? k = some s)
    (hlow : h.entries? s = some low) (ht : upper.find? k = some t) (hes : u.entries? t = some es)
    (hfails : ∀ h₁ R₁, Grown h h₁ R R₁ → inner h₁ low es = none) :
    mergeList u inner h lower upper = none := by
  -- The entries before that key put nothing under it, and what they make leaves both mappings as
  -- they are.
  induction upper generalizing h R lower with
  | nil => cases ht
  | cons e rest ih =>
    obtain ⟨j, w⟩ := e
    rw [mergeList]
    by_cases hkey : k.form = j.form
    · obtain rfl : w = t := by simpa [Entries.find?, hkey] using ht
      rw [← Entries.find?_of_sameKey hkey, hs, mergeAt, Option.bind_some, hlow, hes]
      dsimp only
      rw [hfails h R hR.grown]
      rfl
    · rcases hat : mergeAt u inner h (lower.find? j) w with _ | ⟨r, h₁⟩
      · rfl
      · obtain ⟨R₁, hg, hin⟩ := (mergesAt_of_mergeAt hinner hat).grown hR (find?_in hlower j)
        refine ih hg.domain (put_in (fun e he => (hlower e he).mono hg.subset) hin j) ?_ ?_ ?_
          fun h₂ R₂ hg' => hfails h₂ R₂ (hg.trans hg')
        · rwa [Entries.find?_put_of_ne hkey]
        · rw [entries?_congr (fun addr haddr => hg.get?_eq addr (hR.lt_size addr haddr))
            (find?_in hlower k s hs), hlow]
        · simpa [Entries.find?, Ne.symm hkey] using ht

/-! ## Upper mappings that do not stand in themselves -/

/-- A merge ends if no container of the upper entries stands in itself: each mapping that it goes
down into is another one of their cells. -/
theorem mergeIn_ne_none (hU : u.IsDomain U) (hupper : ∀ e ∈ upper, e.2.In U)
    (hstraight : ∀ e ∈ upper, (u.view e.2).Straight) (cells : List Addr) {above : List Addr}
    (hcells : ∀ e ∈ upper, ∀ addr, u.Reaches e.2 addr → (u.get? addr).isSome = true → addr ∈ cells)
    (hnodup : above.Nodup) (habove : above ⊆ cells)
    (hoff : ∀ e ∈ upper, ∀ addr ∈ above, ¬ u.Reaches e.2 addr)
    (hdepth : cells.length < depth + above.length) : mergeIn u depth h lower upper ≠ none := by
  -- `above` are the cells gone down into so far. They are distinct, and none of them is below what
  -- is left, so that the depth is not used up before the cells are.
  induction depth generalizing h lower upper above with
  | zero =>
    have hle : above.length ≤ cells.length := (hnodup.subperm habove).length_le
    omega
  | succ depth ih =>
    intro hnone
    obtain ⟨e, he, h₁, base, es, hes, hfails, -⟩ :=
      exists_of_mergeList_eq_none merges_of_mergeIn hnone
    rcases hslot : e.2 with a | addr
    · rw [hslot] at hes
      cases hes
    · have hin := hupper e he
      have hread := hstraight e he
      have hreach := hcells e he
      have haway := hoff e he
      rw [hslot] at hes hin hread hreach haway
      have hcell := get?_of_entries? hes
      obtain ⟨-, hinner, B, hB, hslots, hoffB⟩ := view_ref_of_straight hU hin hcell hread
      have hbelow : ∀ d ∈ es, ∀ other, u.Reaches d.2 other → u.Reaches (.ref addr) other :=
        fun d hd other hother => .there hcell (List.mem_map_of_mem hd) hother
      refine ih (hU.entries hin hes)
        (fun d hd => hinner d.2 (List.mem_map_of_mem hd))
        (fun d hd other hother => hreach other (hbelow d hd other hother))
        (List.nodup_cons.mpr ⟨fun hmem => haway addr hmem (.here addr), hnodup⟩)
        (List.cons_subset.mpr ⟨hreach addr (.here addr) (by rw [hcell]; rfl), habove⟩)
        (fun d hd => List.forall_mem_cons.mpr ⟨fun hback => ?_, fun other hother hback => ?_⟩)
        (by rw [List.length_cons]; omega) hfails
      · exact hoffB (hB.reach_subset (hslots d.2 (List.mem_map_of_mem hd)) hback)
      · exact haway other hother (hbelow d hd other hback)

/-- A merge ends if no container of the upper entries stands in itself. -/
theorem exists_mergeFrom (hU : u.IsDomain U) (hupper : ∀ e ∈ upper, e.2.In U)
    (hstraight : ∀ e ∈ upper, (u.view e.2).Straight) (h : Heap) (lower : Entries Slot) :
    ∃ merged h', h.mergeFrom u lower upper = some (merged, h') := by
  have hne : h.mergeFrom u lower upper ≠ none := by
    refine mergeIn_ne_none hU hupper hstraight ((u.parts (upper.map Prod.snd)).map Prod.fst)
      (fun e he addr hreach hcell => ?_) List.nodup_nil (List.nil_subset _)
      (fun e he addr hmem => absurd hmem List.not_mem_nil) ?_
    · obtain ⟨c, hcell⟩ := Option.isSome_iff_exists.mp hcell
      exact List.mem_map_of_mem (mem_parts (List.mem_map_of_mem he) hreach hcell)
    · rw [List.length_map, List.length_nil, mergeDepth]
      exact (Nat.lt_succ_self _).trans_le (Nat.le_mul_of_pos_left _ (Nat.succ_pos _))
  obtain ⟨⟨merged, h'⟩, hmerge⟩ := Option.ne_none_iff_exists'.mp hne
  exact ⟨merged, h', hmerge⟩

/-! ## Paths without end -/

/-- A merge that does not get to its end through so many mappings in one another has a path of that
length at which both have a mapping. -/
theorem exists_mapAt_of_mergeIn (hR : h.IsDomain R) (hbase : base.In R) (hkeyed : u.Keyed t)
    (hlower : h.entries? base = some lower) (hupper : u.entries? t = some upper)
    (hnone : mergeIn u depth h lower upper = none) :
    ∃ path, path.length = depth ∧ h.MapAt base path ∧ u.MapAt t path := by
  induction depth generalizing h base lower t upper with
  | zero => exact ⟨[], rfl, ⟨base, lower, rfl, hlower⟩, ⟨t, upper, rfl, hupper⟩⟩
  | succ depth ih =>
    obtain ⟨⟨k, w⟩, he, h₁, low, es, hes, hfails, hbelow⟩ :=
      exists_of_mergeList_eq_none merges_of_mergeIn hnone
    have hkeys := hkeyed [] t upper rfl hupper
    have hin := hR.entries hbase hlower
    obtain ⟨hlow, R₁, hg⟩ := hbelow R hR hin hkeys
    obtain ⟨s, hs, hlow⟩ := Option.bind_eq_some_iff.mp hlow
    have hw := Entries.find?_of_mem hkeys he
    have hsame : ∀ addr ∈ R, h₁.get? addr = h.get? addr :=
      fun addr haddr => hg.get?_eq addr (hR.lt_size addr haddr)
    have hsin : s.In R := find?_in hin k s hs
    obtain ⟨path, hlength, hs', hw'⟩ := ih (hg.isDomain hR) hsin (hkeyed.of_find? hupper hw)
      ((entries?_congr hsame hsin).trans hlow) hes hfails
    exact ⟨k :: path, congrArg Nat.succ hlength,
      mapAt_cons.mpr ⟨lower, s, hlower, hs, (mapAt_congr hR hsame hsin).mp hs'⟩,
      mapAt_cons.mpr ⟨upper, w, hupper, hw, hw'⟩⟩

/-- A merge does not get to its end through no more mappings in one another than there are on a path
at which both have a mapping. -/
theorem mergeIn_eq_none_of_mapAt (hR : h.IsDomain R) (hbase : base.In R)
    (hlower : h.entries? base = some lower) (hupper : u.entries? t = some upper)
    (hdepth : depth ≤ path.length) (hpath : h.MapAt base path) (hpath' : u.MapAt t path) :
    mergeIn u depth h lower upper = none := by
  induction depth generalizing h R base lower t upper path with
  | zero => rfl
  | succ depth ih =>
    cases path with
    | nil => exact absurd hdepth (Nat.not_succ_le_zero depth)
    | cons k rest =>
      obtain ⟨lower', s, hlower', hs, hpath⟩ := mapAt_cons.mp hpath
      obtain ⟨upper', w, hupper', hw, hpath'⟩ := mapAt_cons.mp hpath'
      obtain rfl := Option.some.inj (hlower.symm.trans hlower')
      obtain rfl := Option.some.inj (hupper.symm.trans hupper')
      obtain ⟨low, hlow⟩ := hpath.exists_entries?
      obtain ⟨es, hes⟩ := hpath'.exists_entries?
      have hin := hR.entries hbase hlower
      have hsin : s.In R := find?_in hin k s hs
      refine mergeList_eq_none_of_find? merges_of_mergeIn hR hin hs hlow hw hes fun h₁ R₁ hg => ?_
      have hsame : ∀ addr ∈ R, h₁.get? addr = h.get? addr :=
        fun addr haddr => hg.get?_eq addr (hR.lt_size addr haddr)
      exact ih (hg.isDomain hR) hsin ((entries?_congr hsame hsin).trans hlow) hes
        (Nat.le_of_succ_le_succ hdepth) ((mapAt_congr hR hsame hsin).mpr hpath) hpath'

/-- What leads back to itself does so any number of times. -/
theorem at?_flatten_replicate (hback : h.at? s q = some s) (n : Nat) :
    h.at? s (List.replicate n q).flatten = some s := by
  induction n with
  | zero => rfl
  | succ n ih =>
    rw [List.replicate_succ, List.flatten_cons, at?_append, hback, Option.bind_some, ih]

/-- On a way that leads back to a mapping one gets to it any number of times. -/
theorem MapAt.again (hmap : h.MapAt s p) (hback : h.at? s (p ++ q) = h.at? s p) (n : Nat) :
    h.MapAt s (p ++ (List.replicate n q).flatten) := by
  obtain ⟨t, es, hat, hes⟩ := hmap
  rw [at?_append, hat, Option.bind_some] at hback
  refine ⟨t, es, ?_, hes⟩
  rw [at?_append, hat, Option.bind_some, at?_flatten_replicate hback]

/-- A mapping at a path through entries is one of their parts. -/
theorem at?_mem_parts (hes : h.entries? s = some es) (hmap : h.MapAt s (k :: path)) :
    h.at? s (k :: path) ∈ (h.parts (es.map Prod.snd)).map fun part => some (Slot.ref part.1) := by
  obtain ⟨es', t, hes', hfind, r, rs, hat, hrs⟩ := mapAt_cons.mp hmap
  obtain rfl := Option.some.inj (hes.symm.trans hes')
  obtain ⟨e, he, rfl⟩ := Entries.mem_of_find? hfind
  cases r with
  | atom a => cases hrs
  | ref addr =>
    have hmem := mem_parts (List.mem_map_of_mem he) (reaches_of_at? hat) (get?_of_entries? hrs)
    refine List.mem_map.mpr ⟨_, hmem, ?_⟩
    rw [at?, hes, Option.bind_some, hfind, Option.bind_some, hat]

/-- On a path that is longer than there are pairs of cells, two mappings come again together. -/
theorem exists_repeated (hlower : h.entries? base = some lower) (hupper : h.entries? t = some upper)
    (hlength : h.mergeDepth h lower upper ≤ path.length) (hpath : h.MapAt base path)
    (hpath' : h.MapAt t path) : ∃ p q r, path = p ++ q ++ r ∧ q ≠ [] ∧
      h.at? base (p ++ q) = h.at? base p ∧ h.at? t (p ++ q) = h.at? t p := by
  classical
  set B := (h.parts (lower.map Prod.snd)).map fun part => some (Slot.ref part.1)
  set T := (h.parts (upper.map Prod.snd)).map fun part => some (Slot.ref part.1)
  -- Along the path both mappings stand in their parts all the way, so there are at most as many
  -- pairs of them as the depth, and one more prefix.
  have hcard : (B.toFinset ×ˢ T.toFinset).card <
      (Finset.range (h.mergeDepth h lower upper)).card := by
    have hB : B.toFinset.card ≤ (h.parts (lower.map Prod.snd)).length :=
      (List.toFinset_card_le B).trans_eq (List.length_map _)
    have hT : T.toFinset.card ≤ (h.parts (upper.map Prod.snd)).length :=
      (List.toFinset_card_le T).trans_eq (List.length_map _)
    rw [Finset.card_product, Finset.card_range, mergeDepth]
    exact Nat.mul_lt_mul'' (Nat.lt_succ_of_le hB) (Nat.lt_succ_of_le hT)
  have hmaps : Set.MapsTo (fun i => (h.at? base (path.take (i + 1)), h.at? t (path.take (i + 1))))
      (Finset.range (h.mergeDepth h lower upper) : Set Nat)
      (B.toFinset ×ˢ T.toFinset : Finset _) := by
    intro i _
    cases path with
    | nil =>
      rw [List.length_nil, Nat.le_zero, mergeDepth] at hlength
      exact absurd hlength (Nat.mul_ne_zero (Nat.succ_ne_zero _) (Nat.succ_ne_zero _))
    | cons k rest =>
      have hsplit : k :: rest = k :: rest.take i ++ rest.drop i :=
        congrArg (k :: ·) (List.take_append_drop i rest).symm
      rw [hsplit] at hpath hpath'
      exact Finset.mem_coe.mpr (Finset.mem_product.mpr
        ⟨List.mem_toFinset.mpr (at?_mem_parts hlower hpath.of_append),
          List.mem_toFinset.mpr (at?_mem_parts hupper hpath'.of_append)⟩)
  obtain ⟨i, hi, j, hj, hne, heq⟩ := Finset.exists_ne_map_eq_of_card_lt_of_maps_to hcard hmaps
  wlog hlt : i < j generalizing i j
  · exact this j hj i hi hne.symm heq.symm (by omega)
  rw [Finset.mem_range] at hj
  obtain ⟨hbase, ht⟩ := Prod.mk.inj heq
  -- The first prefix, continued by what lies between the two, is the second.
  have hfirst : path.take (i + 1) ++ (path.take (j + 1)).drop (i + 1) = path.take (j + 1) := by
    have hfront : path.take (i + 1) = (path.take (j + 1)).take (i + 1) := by
      rw [List.take_take, min_eq_left (by omega)]
    rw [hfront, List.take_append_drop]
  refine ⟨path.take (i + 1), (path.take (j + 1)).drop (i + 1), path.drop (j + 1), ?_, ?_, ?_, ?_⟩
  · rw [hfirst, List.take_append_drop]
  · intro hnil
    have hzero := congrArg List.length hnil
    rw [List.length_drop, List.length_take, List.length_nil] at hzero
    omega
  · rw [hfirst]
    exact hbase.symm
  · rw [hfirst]
    exact ht.symm

/-- A merge of two mappings never ends exactly if there are paths of every length at which both have
a mapping. -/
theorem merge_eq_none_iff (hR : h.IsDomain R) (hbase : base.In R) (hkeyed : h.Keyed t)
    (hmap : h.MapAt base []) (hmap' : h.MapAt t []) : h.merge base t = none ↔
      ∀ n, ∃ path, n ≤ path.length ∧ h.MapAt base path ∧ h.MapAt t path := by
  obtain ⟨lower, hlower⟩ := hmap.exists_entries?
  obtain ⟨upper, hupper⟩ := hmap'.exists_entries?
  have hmerge : h.merge base t = none ↔ h.mergeEntries lower upper = none := by
    unfold merge
    rw [hlower, hupper]
    dsimp only
    rcases h.mergeEntries lower upper with _ | ⟨merged, h'⟩ <;> simp
  rw [hmerge]
  constructor
  · intro hnone n
    obtain ⟨path, hlength, hpath, hpath'⟩ :=
      exists_mapAt_of_mergeIn hR hbase hkeyed hlower hupper hnone
    obtain ⟨p, q, r, rfl, hq, hback, hback'⟩ :=
      exists_repeated hlower hupper hlength.ge hpath hpath'
    -- The part of the path between the two can be gone along any number of times.
    refine ⟨p ++ (List.replicate n q).flatten, ?_,
      hpath.of_append.of_append.again hback n, hpath'.of_append.of_append.again hback' n⟩
    have hpos : 0 < q.length := List.length_pos_iff.mpr hq
    rw [List.length_append, List.length_flatten, List.map_replicate, List.sum_replicate,
      smul_eq_mul]
    exact (Nat.le_mul_of_pos_right n hpos).trans (Nat.le_add_left _ _)
  · intro hpaths
    obtain ⟨path, hlength, hpath, hpath'⟩ := hpaths (h.mergeDepth h lower upper)
    exact mergeIn_eq_none_of_mapAt hR hbase hlower hupper hlength hpath hpath'

end Heap
end Stratum
