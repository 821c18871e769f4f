import Stratum.Heap.Copy
import Stratum.Proofs.Heap.Domain

/-!
# Cells that stand again elsewhere

Part of a heap can stand in another heap too, each of its cells at an address of its own there, with
slots that lead to where the others stand. What is read off there is the same
(`Heap.Mirrors.view_eq`), and so are the entries of mappings and what stands at a path.
-/

namespace Stratum

/-- The slots of a cell with other ones in their places. -/
theorem Cell.slots_mapSlots (f : Slot → Slot) (c : Cell) :
    (c.mapSlots f).slots = c.slots.map f := by
  cases c with
  | list items => rfl
  | row items => rfl
  | map es => simp [mapSlots, slots]
  | set members => rfl
  | object kind fields => simp [mapSlots, slots]

/-- The value of a cell with other slots in their places. -/
theorem Cell.read_mapSlots (f : Slot → Slot) (inner : Slot → Value) (c : Cell) :
    (c.mapSlots f).read inner = c.read (inner ∘ f) := by
  cases c with
  | list items => simp [mapSlots, read]
  | row items => simp [mapSlots, read]
  | map es => simp [mapSlots, read]
  | set members => rfl
  | object kind fields => simp [mapSlots, read]

/-- A cell whose slots are replaced twice. -/
theorem Cell.mapSlots_mapSlots (f g : Slot → Slot) (c : Cell) :
    (c.mapSlots f).mapSlots g = c.mapSlots (g ∘ f) := by
  cases c with
  | list items => simp [mapSlots]
  | row items => simp [mapSlots]
  | map es => simp [mapSlots]
  | set members => rfl
  | object kind fields => simp [mapSlots]

/-- What takes the places of the slots of a cell depends on these slots only. -/
theorem Cell.mapSlots_congr {f g : Slot → Slot} {c : Cell} (h : ∀ s ∈ c.slots, f s = g s) :
    c.mapSlots f = c.mapSlots g := by
  cases c with
  | list items => exact congrArg Cell.list (List.map_congr_left h)
  | row items => exact congrArg Cell.row (List.map_congr_left h)
  | map es =>
    refine congrArg Cell.map (List.map_congr_left fun e he => ?_)
    exact congrArg (Prod.mk e.1) (h e.2 (List.mem_map_of_mem he))
  | set members => rfl
  | object kind fields =>
    refine congrArg (Cell.object kind) (List.map_congr_left fun f hf => ?_)
    exact congrArg (Prod.mk f.1) (h f.2 (List.mem_map_of_mem hf))

/-- A slot that leads to the same address as before is the same slot. -/
@[simp] theorem Slot.moved_some : Slot.moved some = id := by
  funext s
  cases s <;> rfl

/-- A cell whose slots lead to the same addresses as before is the same cell. -/
@[simp] theorem Cell.mapSlots_moved_some (c : Cell) : c.mapSlots (Slot.moved some) = c := by
  cases c <;> simp [mapSlots]

namespace Entries

variable {α β : Type}

/-- What is found under a key after each value is replaced. -/
theorem find?_map (f : α → β) (k : Atom) (es : Entries α) :
    find? k (es.map fun (a, v) => (a, f v)) = (es.find? k).map f := by
  induction es with
  | nil => rfl
  | cons e es ih =>
    obtain ⟨a, v⟩ := e
    rw [List.map_cons]
    dsimp only
    rw [find?, find?, ih]
    split <;> rfl

/-- A put of a replaced value. -/
theorem put_map (f : α → β) (k : Atom) (v : α) (es : Entries α) :
    put k (f v) (es.map fun (a, v) => (a, f v)) = (es.put k v).map fun (a, v) => (a, f v) := by
  induction es with
  | nil => rfl
  | cons e es ih =>
    obtain ⟨a, w⟩ := e
    rw [List.map_cons]
    dsimp only
    rw [put, put, ih]
    split <;> rfl

end Entries

namespace Heap

variable {h h' : Heap} {C R : Set Addr} {place : Addr → Option Addr} {s : Slot}

/-- Down to more containers than there are cells a slot is read off the same, however many more. -/
theorem viewIn_fuel (h : Heap) {fuel fuel' : Nat} {above : List Addr} (hnodup : above.Nodup)
    (habove : ∀ addr ∈ above, addr < h.cells.size) (hfuel : h.cells.size < fuel + above.length)
    (hfuel' : h.cells.size < fuel' + above.length) (s : Slot) :
    h.viewIn fuel' above s = h.viewIn fuel above s := by
  have hlength : above.length ≤ h.cells.size := length_le_of_nodup hnodup habove
  induction fuel generalizing fuel' above s with
  | zero => omega
  | succ fuel ih =>
    obtain ⟨fuel', rfl⟩ : ∃ n, fuel' = n + 1 := ⟨fuel' - 1, by omega⟩
    cases s with
    | atom a => rw [viewIn, viewIn]
    | ref addr =>
      rw [viewIn_ref, viewIn_ref]
      rcases habsent : above.idxOf? addr with _ | i
      · rcases hcell : h.get? addr with _ | c
        · rfl
        · have hmem : addr ∉ above := List.idxOf?_eq_none_iff.mp habsent
          have hnodup' : (addr :: above).Nodup := List.nodup_cons.mpr ⟨hmem, hnodup⟩
          have habove' : ∀ other ∈ addr :: above, other < h.cells.size :=
            List.forall_mem_cons.mpr ⟨lt_size_of_get? hcell, habove⟩
          have hlength' : (addr :: above).length ≤ h.cells.size :=
            length_le_of_nodup hnodup' habove'
          have hlonger : (addr :: above).length = above.length + 1 := List.length_cons
          exact Cell.read_congr fun t _ =>
            ih hnodup' habove' (by omega) (by omega) t hlength'
      · rfl

/-- With nothing around a slot there is fuel for more containers than are read off. -/
theorem viewIn_eq_view (h : Heap) {fuel : Nat} (hfuel : h.cells.size < fuel) (s : Slot) :
    h.viewIn fuel [] s = h.view s :=
  h.viewIn_fuel List.nodup_nil (fun _ hmem => absurd hmem List.not_mem_nil) (Nat.lt_succ_self _)
    hfuel s

/-- A part of a heap stands in another heap too, each of its cells where `place` says, different
ones at different addresses. An address of the part that has no place has no cell either. -/
structure Mirrors (h : Heap) (C : Set Addr) (place : Addr → Option Addr) (h' : Heap) : Prop where
  closed : ∀ addr ∈ C, ∀ c, h.get? addr = some c → ∀ s ∈ c.slots, s.In C
  missing : ∀ addr ∈ C, place addr = none → h.get? addr = none
  get?_eq : ∀ addr ∈ C, ∀ other, place addr = some other →
    h'.get? other = (h.get? addr).map (Cell.mapSlots (Slot.moved place))
  injective : ∀ a ∈ C, ∀ b ∈ C, ∀ other, place a = some other → place b = some other → a = b

/-- A domain stands in every heap that has the same cells there. -/
theorem IsDomain.mirrors (hR : h.IsDomain R) (hsame : ∀ addr ∈ R, h'.get? addr = h.get? addr) :
    h.Mirrors R some h' := by
  refine ⟨hR.closed, nofun, fun addr haddr other hother => ?_, fun a _ b _ other ha hb => ?_⟩
  · obtain rfl := Option.some.inj hother
    rw [hsame addr haddr]
    rcases h.get? addr with _ | c
    · rfl
    · exact congrArg some c.mapSlots_moved_some.symm
  · exact Option.some.inj (ha.trans hb.symm)

/-- What stands again depends on the cells of the part only. -/
theorem Mirrors.congr {g : Heap} (hm : h.Mirrors C place h')
    (hsame : ∀ addr ∈ C, g.get? addr = h.get? addr) : g.Mirrors C place h' := by
  refine ⟨fun addr haddr c hcell => ?_, fun addr haddr hplace => ?_,
    fun addr haddr other hplace => ?_, hm.injective⟩
  · exact hm.closed addr haddr c (hsame addr haddr ▸ hcell)
  · exact (hsame addr haddr).trans (hm.missing addr haddr hplace)
  · rw [hm.get?_eq addr haddr other hplace, hsame addr haddr]

namespace Mirrors

variable (hm : h.Mirrors C place h')
include hm

/-- A mapping has the same entries where it stands again, but for where they lead. -/
theorem entries?_eq (hs : s.In C) :
    h'.entries? (s.moved place) =
      (h.entries? s).map fun es => es.map fun (k, t) => (k, t.moved place) := by
  cases s with
  | atom a => rfl
  | ref addr =>
    rw [Slot.moved]
    rcases hplace : place addr with _ | other
    · rw [entries?, entries?, hm.missing addr hs hplace]
      rfl
    · rw [entries?, entries?, hm.get?_eq addr hs other hplace]
      rcases h.get? addr with _ | c
      · rfl
      · cases c <;> rfl

/-- The entries of a mapping of the part lead into it. -/
theorem entries_in (hs : s.In C) {es : Entries Slot} (hes : h.entries? s = some es) :
    ∀ e ∈ es, e.2.In C := by
  intro e he
  cases s with
  | atom a => cases hes
  | ref addr =>
    rcases hcell : h.get? addr with _ | c
    · simp [entries?, hcell] at hes
    · cases c with
      | map fs =>
        obtain rfl : fs = es := by simpa [entries?, hcell] using hes
        exact hm.closed addr hs _ hcell e.2 (List.mem_map_of_mem he)
      | _ => simp [entries?, hcell] at hes

/-- The same stands at a path, but for where it leads. -/
theorem at?_eq (hs : s.In C) (path : List Atom) :
    h'.at? (s.moved place) path = (h.at? s path).map (Slot.moved place) := by
  induction path generalizing s with
  | nil => rfl
  | cons k rest ih =>
    rw [at?, at?, hm.entries?_eq hs]
    rcases hes : h.entries? s with _ | es
    · rfl
    · rw [Option.map_some, Option.bind_some, Option.bind_some, Entries.find?_map]
      rcases hfind : es.find? k with _ | t
      · rfl
      · obtain ⟨e, he, rfl⟩ := Entries.mem_of_find? hfind
        exact ih (hm.entries_in hs hes e he)

/-- The place of a container around a slot is that of the container where it stands again. -/
theorem idxOf?_eq {above above' : List Addr} (habove : ∀ addr ∈ above, addr ∈ C)
    (hplaces : List.Forall₂ (fun addr other => place addr = some other) above above') {addr : Addr}
    (haddr : addr ∈ C) {other : Addr} (hplace : place addr = some other) :
    above'.idxOf? other = above.idxOf? addr := by
  induction hplaces with
  | nil => rfl
  | @cons a b above above' ha _ ih =>
    obtain ⟨haC, habove⟩ := List.forall_mem_cons.mp habove
    have hsame : (b == other) = (a == addr) := by
      rw [Bool.eq_iff_iff, beq_iff_eq, beq_iff_eq]
      constructor
      · rintro rfl
        exact hm.injective a haC addr haddr b ha hplace
      · rintro rfl
        exact Option.some.inj (ha.symm.trans hplace)
    rw [List.idxOf?_cons, List.idxOf?_cons, hsame, ih habove]

/-- Down to so many containers a slot is read off the same where it stands again. -/
theorem viewIn_eq (fuel : Nat) {above above' : List Addr} (habove : ∀ addr ∈ above, addr ∈ C)
    (hplaces : List.Forall₂ (fun addr other => place addr = some other) above above')
    (hs : s.In C) : h'.viewIn fuel above' (s.moved place) = h.viewIn fuel above s := by
  -- The containers around the slot keep their order, so that a slot leads back to the same one of
  -- them on both heaps.
  induction fuel generalizing above above' s with
  | zero =>
    cases s with
    | atom a => rfl
    | ref addr =>
      rw [Slot.moved]
      rcases place addr with _ | other <;> rfl
  | succ fuel ih =>
    cases s with
    | atom a => rfl
    | ref addr =>
      rw [Slot.moved, viewIn_ref]
      rcases hplace : place addr with _ | other
      · -- Nothing stands around the slot that has no place.
        have habsent : above.idxOf? addr = none := by
          refine List.idxOf?_eq_none_iff.mpr fun hmem => ?_
          obtain ⟨i, hi, rfl⟩ := List.mem_iff_getElem.mp hmem
          have hi' : i < above'.length := hplaces.length_eq ▸ hi
          have hsome := (List.forall₂_iff_get.mp hplaces).2 i hi hi'
          rw [List.get_eq_getElem, hplace] at hsome
          cases hsome
        rw [habsent, hm.missing addr hs hplace]
        rfl
      · rw [viewIn_ref, hm.idxOf?_eq habove hplaces hs hplace, hm.get?_eq addr hs other hplace]
        rcases above.idxOf? addr with _ | i
        · rcases hcell : h.get? addr with _ | c
          · rfl
          · dsimp only [Option.map_some, Option.getD_some]
            rw [Cell.read_mapSlots]
            refine Cell.read_congr fun t ht => ?_
            exact ih (List.forall_mem_cons.mpr ⟨hs, habove⟩) (.cons hplace hplaces)
              (hm.closed addr hs c hcell t ht)
        · rfl

/-- What is read off is the same where it stands again. -/
theorem view_eq (hs : s.In C) : h'.view (s.moved place) = h.view s := by
  -- Fuel that is enough in both heaps.
  obtain ⟨fuel, hlt, hlt'⟩ : ∃ fuel, h.cells.size < fuel ∧ h'.cells.size < fuel :=
    ⟨h.cells.size + h'.cells.size + 1, by omega, by omega⟩
  calc h'.view (s.moved place)
    _ = h'.viewIn fuel [] (s.moved place) := (h'.viewIn_eq_view hlt' _).symm
    _ = h.viewIn fuel [] s :=
      hm.viewIn_eq fuel (fun _ hmem => absurd hmem List.not_mem_nil) .nil hs
    _ = h.view s := h.viewIn_eq_view hlt s

end Mirrors

/-! ## Cells that stay where they are -/

variable {R' : Set Addr}

/-- What a slot is read off as, down to more containers than there are cells, depends on the cells
of a domain only that it leads into. -/
theorem viewIn_congr (hR : h.IsDomain R) (hsame : ∀ addr ∈ R, h'.get? addr = h.get? addr)
    {fuel fuel' : Nat} {above : List Addr} (hnodup : above.Nodup)
    (habove : ∀ addr ∈ above, addr ∈ R) (hfuel : h.cells.size < fuel + above.length)
    (hfuel' : h.cells.size < fuel' + above.length) (hs : s.In R) :
    h'.viewIn fuel' above s = h.viewIn fuel above s := by
  have hplaces : List.Forall₂ (fun addr other => some addr = some other) above above :=
    List.forall₂_same.mpr fun _ _ => rfl
  calc h'.viewIn fuel' above s
    _ = h'.viewIn fuel' above (s.moved some) := by rw [Slot.moved_some, id]
    _ = h.viewIn fuel' above s := (hR.mirrors hsame).viewIn_eq fuel' habove hplaces hs
    _ = h.viewIn fuel above s :=
      h.viewIn_fuel hnodup (fun addr haddr => hR.lt_size addr (habove addr haddr)) hfuel hfuel' s

/-- What a slot is read off as depends on the cells of a domain only that it leads into. -/
theorem view_congr (hR : h.IsDomain R) (hsame : ∀ addr ∈ R, h'.get? addr = h.get? addr)
    (hs : s.In R) : h'.view s = h.view s := by
  simpa using (hR.mirrors hsame).view_eq hs

/-- What is there is read off as before while cells are made. -/
theorem Grown.view_eq (hg : Grown h h' R R') {A : Set Addr} (hA : h.IsDomain A) (hs : s.In A) :
    h'.view s = h.view s :=
  view_congr hA (fun addr haddr => hg.get?_eq addr (hA.lt_size addr haddr)) hs

/-- What stands at a path depends on the cells of a domain only that the path starts in. -/
theorem at?_congr (hR : h.IsDomain R) (hsame : ∀ addr ∈ R, h'.get? addr = h.get? addr)
    (hs : s.In R) (path : List Atom) : h'.at? s path = h.at? s path := by
  simpa using (hR.mirrors hsame).at?_eq hs path

/-- What mapping a slot holds depends on the cells of a domain only that it leads into. -/
theorem entries?_congr (hsame : ∀ addr ∈ R, h'.get? addr = h.get? addr) (hs : s.In R) :
    h'.entries? s = h.entries? s := by
  cases s with
  | atom a => rfl
  | ref addr => rw [entries?, entries?, hsame addr hs]

end Heap
end Stratum
