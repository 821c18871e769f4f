import Stratum.Proofs.Overlay.Merge
import Stratum.Value.Merge

/-!
# What a merge is read off as

Where no container stands in itself, entries laid over a config are read off as the values laid over
what the config was read off as (`Overlay.view_of_merges`).
-/

namespace Stratum

/-! ## Straight values -/

/-- A value in which no container stands in itself. -/
inductive Value.Straight : Value → Prop
  | atom (a : Atom) : Straight (.atom a)
  | list {items : List Value} (h : ∀ v ∈ items, Straight v) : Straight (.list items)
  | row {items : List Value} (h : ∀ v ∈ items, Straight v) : Straight (.row items)
  | map {es : List (Atom × Value)} (h : ∀ e ∈ es, Straight e.2) : Straight (.map es)
  | set (members : List Atom) : Straight (.set members)
  | object {kind : String} {fields : List (String × Value)} (h : ∀ f ∈ fields, Straight f.2) :
      Straight (.object kind fields)

namespace Value

variable {v : Value} {es lower : Entries Value}

/-- The entries of a straight mapping are straight. -/
theorem Straight.of_map (h : (Value.map es).Straight) : ∀ e ∈ es, e.2.Straight := by
  cases h with
  | map h => exact h

/-- What is found among straight entries is straight. -/
theorem straight_find? (h : ∀ e ∈ es, e.2.Straight) (k : Atom) :
    ∀ v ∈ es.find? k, v.Straight := by
  intro v hv
  obtain ⟨e, he, rfl⟩ := Entries.mem_of_find? hv
  exact h e he

/-- Straight entries stay so with a straight value put among them. -/
theorem straight_put (h : ∀ e ∈ es, e.2.Straight) (hv : v.Straight) (k : Atom) :
    ∀ e ∈ es.put k v, e.2.Straight := by
  intro e he
  rcases Entries.mem_put he with heq | ⟨d, hd, heq⟩
  · rwa [heq]
  · rw [← heq]
    exact h d hd

/-- A value that is not laid over a mapping, or is none itself, takes the place of what was
there. -/
theorem mergeAt_of_one {base : Option Value}
    (hone : base.bind entries? = none ∨ v.entries? = none) : mergeAt base v = v := by
  cases v with
  | map es => rw [mergeAt, hone.resolve_right (Option.some_ne_none es)]
  | _ => rfl

mutual

/-- A straight value laid over a straight one is straight. -/
theorem straight_mergeAt {lower : Option Value} (hlower : ∀ w ∈ lower, w.Straight) (v : Value)
    (hv : v.Straight) : (mergeAt lower v).Straight := by
  match v with
  | .map es =>
    rw [mergeAt]
    rcases hbase : lower.bind entries? with _ | base
    · exact hv
    · obtain ⟨w, hw, hentries⟩ := Option.bind_eq_some_iff.mp hbase
      cases w with
      | map fs =>
        obtain rfl := Option.some.inj hentries
        exact .map (straight_mergeEntries (hlower _ hw).of_map es hv.of_map)
      | _ => cases hentries
  | .atom _ | .list _ | .row _ | .set _ | .object _ _ | .enclosing _ => exact hv

/-- Straight entries laid over straight ones are straight. -/
theorem straight_mergeEntries {lower : Entries Value} (hlower : ∀ e ∈ lower, e.2.Straight)
    (upper : List (Atom × Value)) (hupper : ∀ e ∈ upper, e.2.Straight) :
    ∀ e ∈ mergeEntries lower upper, e.2.Straight := by
  match upper with
  | [] => exact hlower
  | (k, v) :: rest =>
    obtain ⟨hv, hrest⟩ := List.forall_mem_cons.mp hupper
    have hat := straight_mergeAt (straight_find? hlower k) v hv
    exact straight_mergeEntries (straight_put hlower hat k) rest hrest

end

end Value

/-- The values in the slots of a cell are straight if its value is. -/
theorem Cell.straight_of_read {c : Cell} {inner : Slot → Value} (h : (c.read inner).Straight) :
    ∀ s ∈ c.slots, (inner s).Straight := by
  cases c with
  | list items =>
    cases h with
    | list h => exact List.forall_mem_map.mp h
  | row items =>
    cases h with
    | row h => exact List.forall_mem_map.mp h
  | map es =>
    cases h with
    | map h =>
      refine List.forall_mem_map.mpr fun e he => ?_
      exact h (e.1, inner e.2) (List.mem_map.mpr ⟨e, he, rfl⟩)
  | set members => exact fun s hs => absurd hs List.not_mem_nil
  | object kind fields =>
    cases h with
    | object h =>
      refine List.forall_mem_map.mpr fun f hf => ?_
      exact h (f.1, inner f.2) (List.mem_map.mpr ⟨f, hf, rfl⟩)

namespace Heap

variable {h h' : Heap} {R R' : Set Addr} {addr : Addr} {c : Cell} {s : Slot}

/-! ## Containers that stand alone -/

/-- The place of an address that is none of those that are added behind. -/
theorem idxOf?_append (above : List Addr) {extra : List Addr} (hextra : addr ∉ extra) :
    (above ++ extra).idxOf? addr = above.idxOf? addr := by
  induction above with
  | nil => exact List.idxOf?_eq_none_iff.mpr hextra
  | cons a above ih => rw [List.cons_append, List.idxOf?_cons, List.idxOf?_cons, ih]

/-- Containers outside the domain that a slot leads into make no difference to what it is read off
as. -/
theorem viewIn_append (hR : h.IsDomain R) (above : List Addr) {extra : List Addr}
    (hextra : ∀ addr ∈ extra, addr ∉ R) (fuel : Nat) (hs : s.In R) :
    h.viewIn fuel (above ++ extra) s = h.viewIn fuel above s := by
  induction fuel generalizing above s with
  | zero => cases s <;> rfl
  | succ fuel ih =>
    cases s with
    | atom a => rfl
    | ref addr =>
      rw [viewIn_ref, viewIn_ref, idxOf?_append above fun hmem => hextra addr hmem hs]
      rcases above.idxOf? addr with _ | i
      · rcases hcell : h.get? addr with _ | c
        · rfl
        · refine Cell.read_congr fun t ht => ?_
          exact ih (addr :: above) (hR.closed addr hs c hcell t ht)
      · rfl

/-- A container that is not reached from what it holds is read off by its cell. -/
theorem view_ref (hR : h.IsDomain R) (hcell : h.get? addr = some c)
    (hslots : ∀ t ∈ c.slots, t.In R) (haddr : addr ∉ R) :
    h.view (.ref addr) = c.read h.view := by
  have hlt : addr < h.cells.size := lt_size_of_get? hcell
  have hwhole : h.IsDomain (insert addr R) := by
    refine ⟨?_, ?_⟩
    · rintro other (rfl | hother)
      · exact hlt
      · exact hR.lt_size other hother
    · rintro other (rfl | hother) d hd t ht
      · obtain rfl : c = d := Option.some.inj (hcell.symm.trans hd)
        exact (hslots t ht).mono (Set.subset_insert _ _)
      · exact (hR.closed other hother d hd t ht).mono (Set.subset_insert _ _)
  rw [view, viewIn_ref, hcell]
  refine Cell.read_congr fun t ht => ?_
  have hin : t.In (insert addr R) := (hslots t ht).mono (Set.subset_insert _ _)
  calc h.viewIn h.cells.size [addr] t
    _ = h.viewIn (h.cells.size + 1) [addr] t :=
      (viewIn_congr hwhole (fun _ _ => rfl) (List.nodup_singleton addr)
        (List.forall_mem_singleton.mpr (Set.mem_insert _ _)) (by simp)
        (by simp only [List.length_singleton]; omega) hin).symm
    _ = h.viewIn (h.cells.size + 1) [] t :=
      viewIn_append hR [] (List.forall_mem_singleton.mpr haddr) _ (hslots t ht)

/-- What is read off as straight leads back to none of the containers around it. -/
theorem not_straight_of_reaches (hR : h.IsDomain R) {above : List Addr} (hnodup : above.Nodup)
    (habove : ∀ addr ∈ above, addr ∈ R) (hs : s.In R) (hreach : h.Reaches s addr)
    (haddr : addr ∈ above) {fuel : Nat} (hfuel : h.cells.size < fuel + above.length) :
    ¬ (h.viewIn fuel above s).Straight := by
  have hlength : above.length ≤ h.cells.size :=
    length_le_of_nodup hnodup fun a ha => hR.lt_size a (habove a ha)
  obtain ⟨fuel, rfl⟩ : ∃ n, fuel = n + 1 := ⟨fuel - 1, by omega⟩
  -- Along the way to the container that leads back: the reader comes to it, or to another one of
  -- `above` before it.
  induction hreach generalizing above fuel with
  | here addr =>
    rw [viewIn_ref]
    rcases hindex : above.idxOf? addr with _ | i
    · exact absurd haddr (List.idxOf?_eq_none_iff.mp hindex)
    · rintro ⟨⟩
  | @there a other c t hcell hslot hreach ih =>
    rw [viewIn_ref]
    rcases hindex : above.idxOf? a with _ | i
    · have hmem : a ∉ above := List.idxOf?_eq_none_iff.mp hindex
      have hnodup' : (a :: above).Nodup := List.nodup_cons.mpr ⟨hmem, hnodup⟩
      have habove' : ∀ b ∈ a :: above, b ∈ R := List.forall_mem_cons.mpr ⟨hs, habove⟩
      have hlength' : (a :: above).length ≤ h.cells.size :=
        length_le_of_nodup hnodup' fun b hb => hR.lt_size b (habove' b hb)
      rw [List.length_cons] at hlength'
      obtain ⟨n, rfl⟩ : ∃ n, fuel = n + 1 := ⟨fuel - 1, by omega⟩
      dsimp only
      rw [hcell]
      intro hstraight
      refine ih hnodup' habove' (hR.closed a hs c hcell t hslot) (List.mem_cons_of_mem _ haddr)
        (by rw [List.length_cons]; omega) n (by rw [List.length_cons]; omega) ?_
      exact Cell.straight_of_read hstraight t hslot
    · rintro ⟨⟩

/-- A container that is read off as straight is read off by its cell, what it holds is straight too,
and it is not reached from there. -/
theorem view_ref_of_straight (hR : h.IsDomain R) (haddr : addr ∈ R) (hcell : h.get? addr = some c)
    (hstraight : (h.view (.ref addr)).Straight) :
    h.view (.ref addr) = c.read h.view ∧ (∀ t ∈ c.slots, (h.view t).Straight) ∧
      ∃ B, h.IsDomain B ∧ (∀ t ∈ c.slots, t.In B) ∧ addr ∉ B := by
  have hinner : ∀ t ∈ c.slots, (h.viewIn h.cells.size [addr] t).Straight := by
    rw [view, viewIn_ref, hcell] at hstraight
    exact Cell.straight_of_read hstraight
  have hslots := hR.closed addr haddr c hcell
  let B : Set Addr := {other | ∃ t ∈ c.slots, h.Reaches t other}
  have hB : h.IsDomain B := by
    refine isDomain_of_reaches ?_ ?_
    · rintro other ⟨t, ht, hreach⟩
      exact hR.lt_size other (hR.reach_subset (hslots t ht) hreach)
    · rintro other ⟨t, ht, hreach⟩ further hfurther
      exact ⟨t, ht, hreach.trans hfurther⟩
  have hslotsB : ∀ t ∈ c.slots, t.In B := fun t ht =>
    (h.in_reach t).mono fun other hother => ⟨t, ht, hother⟩
  have hoff : addr ∉ B := by
    rintro ⟨t, ht, hreach⟩
    exact not_straight_of_reaches hR (List.nodup_singleton addr)
      (List.forall_mem_singleton.mpr haddr) (hslots t ht) hreach List.mem_cons_self (by simp)
      (hinner t ht)
  have hread := view_ref hB hcell hslotsB hoff
  exact ⟨hread, Cell.straight_of_read (hread ▸ hstraight), B, hB, hslotsB, hoff⟩

/-! ## Merging -/

/-- Entries read off. -/
def viewEntries (h : Heap) (es : Entries Slot) : Entries Value := es.map fun (k, s) => (k, h.view s)

/-- Entries are read off as before if the cells of a domain that they lead into are as they were. -/
theorem viewEntries_congr {es : Entries Slot} (hR : h.IsDomain R) (hes : ∀ e ∈ es, e.2.In R)
    (hsame : ∀ addr ∈ R, h'.get? addr = h.get? addr) : h'.viewEntries es = h.viewEntries es :=
  List.map_congr_left fun e he => congrArg (Prod.mk e.1) (view_congr hR hsame (hes e he))

/-- The entries of a mapping that is read off as straight. -/
theorem view_of_entries? {es : Entries Slot} (hR : h.IsDomain R) (hs : s.In R)
    (hes : h.entries? s = some es) (hstraight : (h.view s).Straight) :
    h.view s = .map (h.viewEntries es) ∧ ∀ e ∈ es, (h.view e.2).Straight := by
  cases s with
  | atom a => cases hes
  | ref addr =>
    have hcell := get?_of_entries? hes
    obtain ⟨hread, hslots, -⟩ := view_ref_of_straight hR hs hcell hstraight
    exact ⟨hread, fun e he => hslots e.2 (List.mem_map_of_mem he)⟩

/-- What holds no mapping is read off as none. -/
theorem entries?_view_of_none (hs : h.entries? s = none) : (h.view s).entries? = none := by
  cases s with
  | atom a => rfl
  | ref addr =>
    rw [view, viewIn_ref]
    rw [entries?] at hs
    rcases hcell : h.get? addr with _ | c
    · rfl
    · rw [hcell] at hs
      cases c with
      | map es => cases hs
      | _ => rfl

/-- What is found among entries that are read off. -/
theorem find?_viewEntries (h : Heap) (k : Atom) (es : Entries Slot) :
    (h.viewEntries es).find? k = (es.find? k).map h.view := Entries.find?_map h.view k es

/-- A put among entries that are read off. -/
theorem viewEntries_put (h : Heap) (k : Atom) (s : Slot) (es : Entries Slot) :
    h.viewEntries (es.put k s) = (h.viewEntries es).put k (h.view s) :=
  (Entries.put_map h.view k s es).symm

/-- A value among straight ones that is put where another one is read off. -/
theorem straight_viewEntries_put {es : Entries Slot} (hes : ∀ e ∈ es, (h.view e.2).Straight)
    (hs : (h.view s).Straight) (k : Atom) : ∀ e ∈ es.put k s, (h.view e.2).Straight := by
  intro e he
  rcases Entries.mem_put he with heq | ⟨d, hd, heq⟩
  · rwa [heq]
  · rw [← heq]
    exact hes d hd

/-- A new mapping is read off by its entries. -/
theorem view_alloc {es : Entries Slot} (hR : h.IsDomain R) (hes : ∀ e ∈ es, e.2.In R) :
    (h.alloc (.map es)).2.view (.ref (h.alloc (.map es)).1) = .map (h.viewEntries es) := by
  have hslots : ∀ t ∈ (Cell.map es).slots, t.In R := List.forall_mem_map.mpr hes
  have hstay := (hR.grown_alloc hslots).stay hR
  have hoff : h.cells.size ∉ R := fun hmem => absurd (hR.lt_size _ hmem) (Nat.lt_irrefl _)
  calc (h.alloc (.map es)).2.view (.ref h.cells.size)
    _ = .map ((h.alloc (.map es)).2.viewEntries es) :=
      view_ref hstay.domain (h.get?_alloc (.map es)) hslots hoff
    _ = .map (h.viewEntries es) := congrArg Value.map <|
      viewEntries_congr hR hes fun addr haddr => hstay.get?_eq addr (hR.lt_size addr haddr)

/-- A slot that is read off as the values under a key merged is put there: straight entries stay
straight, and they are read off with the merged value put under the key. -/
theorem viewEntries_put_of_mergeAt {u h₁ : Heap} {R₁ : Set Addr} {lower : Entries Slot} {k : Atom}
    {s t : Slot} (hR : h.IsDomain R) (hlower : ∀ e ∈ lower, e.2.In R) (hg : Grown h h₁ R R₁)
    (hstraight : ∀ e ∈ lower, (h.view e.2).Straight) (ht : (u.view t).Straight)
    (hs : h₁.view s = Value.mergeAt ((lower.find? k).map h.view) (u.view t)) :
    (∀ e ∈ lower.put k s, (h₁.view e.2).Straight) ∧
      h₁.viewEntries (lower.put k s) = (h.viewEntries lower).put k
        (Value.mergeAt ((h.viewEntries lower).find? k) (u.view t)) := by
  have hfound : ∀ v ∈ (lower.find? k).map h.view, v.Straight := by
    intro v hv
    obtain ⟨s, hs, rfl⟩ := Option.map_eq_some_iff.mp hv
    obtain ⟨e, he, rfl⟩ := Entries.mem_of_find? hs
    exact hstraight e he
  -- The heap has only grown, so that the other entries are read off as before.
  have hold : ∀ e ∈ lower, h₁.view e.2 = h.view e.2 := fun e he => hg.view_eq hR (hlower e he)
  refine ⟨straight_viewEntries_put (fun e he => (hold e he).symm ▸ hstraight e he)
    (hs ▸ Value.straight_mergeAt hfound _ ht) k, ?_⟩
  rw [viewEntries_put, hs, find?_viewEntries]
  exact congrArg (Entries.put k _) (List.map_congr_left fun e he =>
    congrArg (Prod.mk e.1) (hold e he))

/-- A merge is read off as the values merged. -/
theorem Merges.viewEntries_eq {u h h' : Heap} {R U : Set Addr} {lower upper merged : Entries Slot}
    (hm : u.Merges h lower upper merged h') (hR : h.IsDomain R) (hlower : ∀ e ∈ lower, e.2.In R)
    (hstraight : ∀ e ∈ lower, (h.view e.2).Straight) (hU : u.IsDomain U)
    (hupper : ∀ e ∈ upper, e.2.In U) (hstraightUpper : ∀ e ∈ upper, (u.view e.2).Straight) :
    h'.viewEntries merged = Value.mergeEntries (h.viewEntries lower) (u.viewEntries upper) := by
  -- By induction on the merge, for whatever domain the lower entries stand in: each step puts a
  -- slot under a key that is read off as the values there merged.
  induction hm generalizing R with
  | nil => rfl
  | @copied h h' lower rest merged k t hone hrest ih =>
    obtain ⟨ht, hrestIn⟩ := List.forall_mem_cons.mp hupper
    obtain ⟨htStraight, hrestStraight⟩ := List.forall_mem_cons.mp hstraightUpper
    obtain ⟨R₁, hg, hin⟩ := copyFrom_grown hR u t
    have hs : (h.copyFrom u t).2.view (h.copyFrom u t).1 =
        Value.mergeAt ((lower.find? k).map h.view) (u.view t) := by
      have hleaf : ((lower.find? k).map h.view).bind Value.entries? = none ∨
          (u.view t).entries? = none := by
        refine hone.imp (fun hbase => ?_) entries?_view_of_none
        rcases hfind : lower.find? k with _ | low
        · rfl
        · rw [hfind] at hbase
          exact entries?_view_of_none hbase
      rw [view_copyFrom, Value.mergeAt_of_one hleaf]
    obtain ⟨hstraight', hput⟩ :=
      viewEntries_put_of_mergeAt hR hlower hg hstraight htStraight hs
    rw [ih hg.domain (put_in (fun e he => (hlower e he).mono hg.subset) hin k) hstraight' hrestIn
      hrestStraight, hput]
    rfl
  | @merged h h₁ h' lower rest base es ms merged k t hbase hes hms hrest ih ihrest =>
    obtain ⟨ht, hrestIn⟩ := List.forall_mem_cons.mp hupper
    obtain ⟨htStraight, hrestStraight⟩ := List.forall_mem_cons.mp hstraightUpper
    obtain ⟨low, hlow, hentries⟩ := Option.bind_eq_some_iff.mp hbase
    obtain ⟨e, he, rfl⟩ := Entries.mem_of_find? hlow
    have hlowin := hR.entries (hlower e he) hentries
    obtain ⟨hread, hinner⟩ := view_of_entries? hR (hlower e he) hentries (hstraight e he)
    obtain ⟨hreadUpper, hinnerUpper⟩ := view_of_entries? hU ht hes htStraight
    obtain ⟨R₁, hg, hmade⟩ := hms.grown hR hlowin
    have hnew := hg.domain.grown_alloc (c := .map ms) (List.forall_mem_map.mpr hmade)
    have hg₁ := hg.trans hnew
    have hs : (h₁.alloc (.map ms)).2.view (.ref (h₁.alloc (.map ms)).1) =
        Value.mergeAt ((lower.find? k).map h.view) (u.view t) := by
      rw [view_alloc hg.domain hmade, ih hR hlowin hinner (hU.entries ht hes) hinnerUpper,
        Option.mem_def.mp hlow, Option.map_some, hread, hreadUpper, Value.mergeAt_map]
    obtain ⟨hstraight', hput⟩ :=
      viewEntries_put_of_mergeAt hR hlower hg₁ hstraight htStraight hs
    rw [ihrest hg₁.domain
      (put_in (fun e he => (hlower e he).mono hg₁.subset) (Set.mem_insert _ _) k) hstraight'
      hrestIn hrestStraight, hput]
    rfl

end Heap

namespace Overlay

variable {u h h₁ : Heap} {R U : Set Addr} {addr : Addr} {lower upper merged : Entries Slot}

/-- Where no container of a config stands in itself, the config is read off by its new entries after
others are laid over it. -/
theorem view_write_of_merges (hm : u.Merges h lower upper merged h₁) (hR : h.IsDomain R)
    (haddr : (Slot.ref addr).In R) (hlower : h.entries? (.ref addr) = some lower)
    (hstraight : (h.view (.ref addr)).Straight) :
    (h₁.write addr (.map merged)).view (.ref addr) = .map (h₁.viewEntries merged) := by
  obtain ⟨-, -, B, hB, hin, hoff⟩ :=
    Heap.view_ref_of_straight hR haddr (Heap.get?_of_entries? hlower) hstraight
  obtain ⟨B', hg, hmerged⟩ := hm.grown hB (List.forall_mem_map.mp hin)
  have hlt : addr < h.cells.size := hR.lt_size addr haddr
  -- The top of the config is not reached from what it holds, so the write there does not matter.
  have hoff' : addr ∉ B' := fun hmem => (hg.new addr hmem).elim hoff (Nat.not_le_of_lt hlt)
  have hsame : ∀ other ∈ B', (h₁.write addr (.map merged)).get? other = h₁.get? other :=
    fun other hother => Heap.get?_write_of_ne h₁ _ fun heq => hoff' (heq ▸ hother)
  calc (h₁.write addr (.map merged)).view (.ref addr)
    _ = .map ((h₁.write addr (.map merged)).viewEntries merged) :=
      Heap.view_ref (hg.domain.congr (Heap.size_write h₁ addr _).ge hsame)
        (Heap.get?_write h₁ _ (hlt.trans_le hg.size_le)) (List.forall_mem_map.mpr hmerged) hoff'
    _ = .map (h₁.viewEntries merged) :=
      congrArg Value.map (Heap.viewEntries_congr hg.domain hmerged hsame)

/-- Where no container stands in itself, entries laid over a config are read off as the values laid
over what the config was read off as. -/
theorem view_of_merges (hm : u.Merges h lower upper merged h₁) (hR : h.IsDomain R)
    (haddr : (Slot.ref addr).In R) (hlower : h.entries? (.ref addr) = some lower)
    (hstraight : (h.view (.ref addr)).Straight) (hU : u.IsDomain U)
    (hupper : ∀ e ∈ upper, e.2.In U) (hstraightUpper : ∀ e ∈ upper, (u.view e.2).Straight) :
    (h₁.write addr (.map merged)).view (.ref addr) =
      .map (Value.mergeEntries (h.viewEntries lower) (u.viewEntries upper)) := by
  obtain ⟨-, hinner⟩ := Heap.view_of_entries? hR haddr hlower hstraight
  rw [view_write_of_merges hm hR haddr hlower hstraight,
    hm.viewEntries_eq hR (hR.entries haddr hlower) hinner hU hupper hstraightUpper]

end Overlay
end Stratum
