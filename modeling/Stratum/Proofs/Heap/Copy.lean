import Stratum.Proofs.Heap.Mirror

/-!
# What a copy is

A copy has a cell for every cell that its original leads to, and new ones only. So it is read off as
the original (`Heap.view_copyFrom`), and a change of one is not seen through the other.
-/

namespace Stratum.Heap

variable {h h' u u' : Heap} {R A : Set Addr} {s : Slot} {slots : List Slot}
  {found : List (Addr × Cell)} {addr : Addr} {c : Cell}

/-! ## Gathering -/

/-- Cells with their addresses, none of them twice. -/
structure Found (h : Heap) (found : List (Addr × Cell)) : Prop where
  get?_eq : ∀ part ∈ found, h.get? part.1 = some part.2
  nodup : (found.map Prod.fst).Nodup

/-- Nothing more is found from some slots. -/
def Complete (h : Heap) (slots : List Slot) (found : List (Addr × Cell)) : Prop :=
  (slots ++ found.flatMap (·.2.slots)).findSome? (h.unfound? found) = none

/-- A cell that is not among those found, by its slot. -/
theorem unfound?_eq_some {part : Addr × Cell} (hnew : h.unfound? found s = some part) :
    s = .ref part.1 ∧ part.1 ∉ found.map Prod.fst ∧ h.get? part.1 = some part.2 := by
  cases s with
  | atom a => cases hnew
  | ref addr =>
    rw [unfound?] at hnew
    split at hnew
    · cases hnew
    · rename_i habsent
      obtain ⟨c, hcell, rfl⟩ := Option.map_eq_some_iff.mp hnew
      refine ⟨rfl, fun hmem => habsent ?_, hcell⟩
      obtain ⟨other, hother, heq⟩ := List.mem_map.mp hmem
      exact List.any_eq_true.mpr ⟨other, hother, beq_iff_eq.mpr heq⟩

/-- A slot that leads to no further cell leads to one that was found, or to none. -/
theorem unfound?_eq_none (hnone : h.unfound? found (.ref addr) = none)
    (hcell : h.get? addr = some c) : addr ∈ found.map Prod.fst := by
  rw [unfound?, hcell] at hnone
  split at hnone
  · rename_i hany
    obtain ⟨part, hpart, heq⟩ := List.any_eq_true.mp hany
    exact List.mem_map.mpr ⟨part, hpart, beq_iff_eq.mp heq⟩
  · cases hnone

/-- What is found next is found once. -/
theorem Found.snoc (hfound : h.Found found) {part : Addr × Cell} {ss : List Slot}
    (hnew : ss.findSome? (h.unfound? found) = some part) : h.Found (found ++ [part]) := by
  obtain ⟨s, -, hs⟩ := List.exists_of_findSome?_eq_some hnew
  obtain ⟨-, habsent, hcell⟩ := unfound?_eq_some hs
  refine ⟨fun other hother => ?_, ?_⟩
  · rcases List.mem_append.mp hother with hother | hother
    · exact hfound.get?_eq other hother
    · obtain rfl := List.mem_singleton.mp hother
      exact hcell
  · rw [List.map_append, List.nodup_append]
    refine ⟨hfound.nodup, List.nodup_singleton _, ?_⟩
    rintro a ha b hb rfl
    exact habsent (List.mem_singleton.mp hb ▸ ha)

/-- Cells that are found are no more than all. -/
theorem Found.length_le (hfound : h.Found found) : found.length ≤ h.cells.size := by
  have hlt : ∀ addr ∈ found.map Prod.fst, addr < h.cells.size := by
    intro addr haddr
    obtain ⟨part, hpart, rfl⟩ := List.mem_map.mp haddr
    exact lt_size_of_get? (hfound.get?_eq part hpart)
  simpa using length_le_of_nodup hfound.nodup hlt

/-- Once as many cells are found as there are, nothing more is. -/
theorem Found.complete (hfound : h.Found found) (hlength : h.cells.size ≤ found.length)
    (slots : List Slot) : h.Complete slots found := by
  rcases hnew : (slots ++ found.flatMap (·.2.slots)).findSome? (h.unfound? found) with _ | part
  · exact hnew
  · have hmore := (hfound.snoc hnew).length_le
    rw [List.length_append, List.length_singleton] at hmore
    omega

/-- What is gathered is found once. -/
theorem Found.gather (hfound : h.Found found) (slots : List Slot) (fuel : Nat) :
    h.Found (h.gather slots fuel found) := by
  induction fuel generalizing found with
  | zero => exact hfound
  | succ fuel ih =>
    rw [Heap.gather]
    split
    · exact hfound
    · exact ih (hfound.snoc ‹_›)

/-- With fuel for as many cells as there are all of them are gathered that the slots lead to. -/
theorem Found.complete_gather (hfound : h.Found found) (slots : List Slot) {fuel : Nat}
    (hfuel : h.cells.size ≤ fuel + found.length) :
    h.Complete slots (h.gather slots fuel found) := by
  induction fuel generalizing found with
  | zero => exact hfound.complete (by omega) slots
  | succ fuel ih =>
    rw [Heap.gather]
    split
    · assumption
    · refine ih (hfound.snoc ‹_›) ?_
      rw [List.length_append, List.length_singleton]
      omega

/-- No cells are found before the first. -/
theorem found_nil (h : Heap) : h.Found [] :=
  ⟨fun _ hmem => absurd hmem List.not_mem_nil, List.nodup_nil⟩

/-- The parts of some slots are cells, each once. -/
theorem found_parts (h : Heap) (slots : List Slot) : h.Found (h.parts slots) :=
  h.found_nil.gather slots _

/-- They are all the cells that the slots lead to. -/
theorem complete_parts (h : Heap) (slots : List Slot) : h.Complete slots (h.parts slots) :=
  h.found_nil.complete_gather slots (Nat.le_add_right _ _)

/-- A cell that some slots lead to is one of their parts. -/
theorem mem_parts (hs : s ∈ slots) (hreach : h.Reaches s addr) (hcell : h.get? addr = some c) :
    (addr, c) ∈ h.parts slots := by
  have hcomplete := List.findSome?_eq_none_iff.mp (h.complete_parts slots)
  have hfound := h.found_parts slots
  -- Down the way to the cell every slot is one of those that were looked at.
  have hlooked : ∀ s addr, h.Reaches s addr →
      s ∈ slots ++ (h.parts slots).flatMap (·.2.slots) → ∀ c, h.get? addr = some c →
      (addr, c) ∈ h.parts slots := by
    intro s addr hreach
    have hpart : ∀ a c, Slot.ref a ∈ slots ++ (h.parts slots).flatMap (·.2.slots) →
        h.get? a = some c → (a, c) ∈ h.parts slots := by
      intro a c hmem hcell
      obtain ⟨part, hpart, rfl⟩ := List.mem_map.mp (unfound?_eq_none (hcomplete _ hmem) hcell)
      have hsame := hfound.get?_eq part hpart
      obtain rfl := Option.some.inj (hsame.symm.trans hcell)
      exact hpart
    induction hreach with
    | here a => exact fun hmem c hcell => hpart a c hmem hcell
    | there hcell hslot _ ih =>
      intro hmem
      refine ih (List.mem_append_right _ (List.mem_flatMap.mpr ⟨_, hpart _ _ hmem hcell, hslot⟩))
  exact hlooked s addr hreach (List.mem_append_left _ hs) c hcell

/-- More fuel than for as many cells as there are makes no difference. -/
theorem Found.gather_eq (hfound : h.Found found) (slots : List Slot) {fuel fuel' : Nat}
    (hfuel : h.cells.size ≤ fuel + found.length) (hle : fuel ≤ fuel') :
    h.gather slots fuel' found = h.gather slots fuel found := by
  induction fuel generalizing fuel' found with
  | zero =>
    have hcomplete := hfound.complete (by omega) slots
    cases fuel' with
    | zero => rfl
    | succ fuel' =>
      rw [Complete] at hcomplete
      rw [Heap.gather, Heap.gather, hcomplete]
  | succ fuel ih =>
    obtain ⟨fuel', rfl⟩ : ∃ n, fuel' = n + 1 := ⟨fuel' - 1, by omega⟩
    rw [Heap.gather, Heap.gather]
    split
    · rfl
    · refine ih (hfound.snoc ‹_›) ?_ (by omega)
      rw [List.length_append, List.length_singleton]
      omega

section In

variable {C : Set Addr}
  (hclosed : ∀ addr ∈ C, ∀ c, h.get? addr = some c → ∀ s ∈ c.slots, s.In C)
  (hslots : ∀ s ∈ slots, s.In C)
include hclosed hslots

/-- Among slots and cells that stay in a set of cells, the slots that are looked at next do. -/
theorem Found.looked_in (hfound : h.Found found) (hin : ∀ part ∈ found, part.1 ∈ C) :
    ∀ s ∈ slots ++ found.flatMap (·.2.slots), s.In C := by
  refine List.forall_mem_append.mpr ⟨hslots, fun s hs => ?_⟩
  obtain ⟨part, hpart, hs⟩ := List.mem_flatMap.mp hs
  exact hclosed part.1 (hin part hpart) part.2 (hfound.get?_eq part hpart) s hs

/-- So does the cell that is found next. -/
theorem Found.snoc_in (hfound : h.Found found) (hin : ∀ part ∈ found, part.1 ∈ C)
    {part : Addr × Cell} (hnew :
      (slots ++ found.flatMap (·.2.slots)).findSome? (h.unfound? found) = some part) :
    ∀ other ∈ found ++ [part], other.1 ∈ C := by
  obtain ⟨s, hs, hsome⟩ := List.exists_of_findSome?_eq_some hnew
  obtain ⟨rfl, -, -⟩ := unfound?_eq_some hsome
  have hpart : (Slot.ref part.1).In C := hfound.looked_in hclosed hslots hin _ hs
  exact List.forall_mem_append.mpr ⟨hin, List.forall_mem_singleton.mpr hpart⟩

/-- So do all the cells that are gathered. -/
theorem Found.gather_in (hfound : h.Found found) (hin : ∀ part ∈ found, part.1 ∈ C)
    (fuel : Nat) : ∀ part ∈ h.gather slots fuel found, part.1 ∈ C := by
  induction fuel generalizing found with
  | zero => exact hin
  | succ fuel ih =>
    rw [Heap.gather]
    split
    · exact hin
    · exact ih (hfound.snoc ‹_›) (hfound.snoc_in hclosed hslots hin ‹_›)

end In

/-! ## Gathering where the cells stand again -/

namespace Mirrors

variable {C : Set Addr} {place : Addr → Option Addr}

/-- A cell with its address where it stands again. -/
def movedPart (place : Addr → Option Addr) (part : Addr × Cell) : Addr × Cell :=
  ((place part.1).getD part.1, part.2.mapSlots (Slot.moved place))

variable (hm : h.Mirrors C place h')
include hm

/-- A cell of the part has a place. -/
theorem exists_place (haddr : addr ∈ C) (hcell : h.get? addr = some c) :
    ∃ other, place addr = some other := by
  rcases hplace : place addr with _ | other
  · rw [hm.missing addr haddr hplace] at hcell
    cases hcell
  · exact ⟨other, rfl⟩

/-- Where a cell stands again is where another one does only if it is that one. -/
theorem movedPart_beq {part : Addr × Cell} (hpart : part.1 ∈ C)
    (hcell : h.get? part.1 = some part.2) (haddr : addr ∈ C) {other : Addr}
    (hplace : place addr = some other) :
    ((movedPart place part).1 == other) = (part.1 == addr) := by
  obtain ⟨b, hb⟩ := hm.exists_place hpart hcell
  rw [movedPart, hb, Option.getD_some, Bool.eq_iff_iff, beq_iff_eq, beq_iff_eq]
  constructor
  · rintro rfl
    exact hm.injective _ hpart addr haddr b hb hplace
  · rintro rfl
    exact Option.some.inj (hb.symm.trans hplace)

/-- What was not found before is what was not found before where it stands again. -/
theorem unfound?_eq (hfound : h.Found found) (hin : ∀ part ∈ found, part.1 ∈ C) (hs : s.In C) :
    h'.unfound? (found.map (movedPart place)) (s.moved place) =
      (h.unfound? found s).map (movedPart place) := by
  cases s with
  | atom a => rfl
  | ref addr =>
    rw [Slot.moved]
    rcases hplace : place addr with _ | other
    · rw [unfound?, unfound?, hm.missing addr hs hplace]
      split <;> rfl
    · have hany : (found.map (movedPart place)).any (·.1 == other) =
          found.any (·.1 == addr) := by
        rw [List.any_map, Bool.eq_iff_iff, List.any_eq_true, List.any_eq_true]
        refine exists_congr fun part => and_congr_right fun hpart => ?_
        rw [Function.comp_apply,
          hm.movedPart_beq (hin part hpart) (hfound.get?_eq part hpart) hs hplace]
      rw [unfound?, unfound?, hany, hm.get?_eq addr hs other hplace]
      split
      · rfl
      · rcases h.get? addr with _ | c
        · rfl
        · simp [movedPart, hplace]

/-- The next cell is the same, where it stands again. -/
theorem findSome?_eq (hfound : h.Found found) (hin : ∀ part ∈ found, part.1 ∈ C)
    (hslots : ∀ s ∈ slots, s.In C) :
    (slots.map (Slot.moved place)).findSome? (h'.unfound? (found.map (movedPart place))) =
      (slots.findSome? (h.unfound? found)).map (movedPart place) := by
  induction slots with
  | nil => rfl
  | cons s slots ih =>
    obtain ⟨hs, hslots⟩ := List.forall_mem_cons.mp hslots
    rw [List.map_cons, List.findSome?_cons, List.findSome?_cons, hm.unfound?_eq hfound hin hs,
      ih hslots]
    rcases h.unfound? found s with _ | part <;> rfl

/-- The same cells are gathered, each where it stands again. -/
theorem gather_eq (hfound : h.Found found) (hin : ∀ part ∈ found, part.1 ∈ C)
    (hslots : ∀ s ∈ slots, s.In C) (fuel : Nat) :
    h'.gather (slots.map (Slot.moved place)) fuel (found.map (movedPart place)) =
      (h.gather slots fuel found).map (movedPart place) := by
  induction fuel generalizing found with
  | zero => rfl
  | succ fuel ih =>
    have hmoved : slots.map (Slot.moved place) ++
        (found.map (movedPart place)).flatMap (·.2.slots) =
          (slots ++ found.flatMap (·.2.slots)).map (Slot.moved place) := by
      simp [List.flatMap_map, List.map_flatMap, movedPart, Cell.slots_mapSlots]
    rw [gather, gather, hmoved,
      hm.findSome?_eq hfound hin (hfound.looked_in hm.closed hslots hin)]
    rcases hnew : (slots ++ found.flatMap (·.2.slots)).findSome? (h.unfound? found) with _ | part
    · rfl
    · dsimp only [Option.map_some]
      rw [show found.map (movedPart place) ++ [movedPart place part] =
        (found ++ [part]).map (movedPart place) by simp]
      exact ih (hfound.snoc hnew) (hfound.snoc_in hm.closed hslots hin hnew)

/-- The parts of some slots are the same cells, each where it stands again. -/
theorem parts_eq (hslots : ∀ s ∈ slots, s.In C) :
    h'.parts (slots.map (Slot.moved place)) = (h.parts slots).map (movedPart place) := by
  have hle : h.cells.size ≤ h.cells.size + h'.cells.size := Nat.le_add_right _ _
  have hle' : h'.cells.size ≤ h.cells.size + h'.cells.size := Nat.le_add_left _ _
  calc h'.parts (slots.map (Slot.moved place))
    _ = h'.gather (slots.map (Slot.moved place)) (h.cells.size + h'.cells.size) [] :=
      (h'.found_nil.gather_eq _ (Nat.le_add_right _ _) hle').symm
    _ = (h.gather slots (h.cells.size + h'.cells.size) []).map (movedPart place) :=
      hm.gather_eq h.found_nil (fun _ hmem => absurd hmem List.not_mem_nil) hslots _
    _ = (h.parts slots).map (movedPart place) := by
      rw [parts, h.found_nil.gather_eq slots (Nat.le_add_right _ _) hle]

end Mirrors

/-! ## Copies -/

/-- Where the copy of a cell stands. -/
theorem placed_eq_some {first other : Addr} (hplaced : placed found first addr = some other) :
    ∃ i part, found[i]? = some part ∧ part.1 = addr ∧ other = first + i := by
  obtain ⟨i, hi, rfl⟩ := Option.map_eq_some_iff.mp hplaced
  obtain ⟨hlt, heq, -⟩ := List.findIdx?_eq_some_iff_getElem.mp hi
  exact ⟨i, found[i], List.getElem?_eq_getElem hlt, beq_iff_eq.mp heq, rfl⟩

/-- A cell without a copy is none of those that are copied. -/
theorem placed_eq_none {first : Addr} (hplaced : placed found first addr = none) :
    addr ∉ found.map Prod.fst := by
  intro hmem
  obtain ⟨part, hpart, rfl⟩ := List.mem_map.mp hmem
  have hnone := List.findIdx?_eq_none_iff.mp (Option.map_eq_none_iff.mp hplaced) part hpart
  simp at hnone

/-- A copy has as many cells as its original has parts. -/
theorem size_copyFrom (h u : Heap) (s : Slot) :
    (h.copyFrom u s).2.cells.size = h.cells.size + (u.parts [s]).length := by
  simp [copyFrom]

/-- A copy leaves the cells alone that are there. -/
theorem get?_copyFrom_of_lt (u : Heap) (s : Slot) (hlt : addr < h.cells.size) :
    (h.copyFrom u s).2.get? addr = h.get? addr := by
  simp [copyFrom, get?, Array.getElem?_append, hlt]

/-- The cells of a copy. -/
theorem get?_copyFrom (h u : Heap) (s : Slot) (i : Nat) :
    (h.copyFrom u s).2.get? (h.cells.size + i) = ((u.parts [s])[i]?).map fun part =>
      part.2.mapSlots (Slot.moved (placed (u.parts [s]) h.cells.size)) := by
  simp [copyFrom, get?, Array.getElem?_append]

/-- The cells of a copy lead to one another. -/
theorem copyFrom_grown (hR : h.IsDomain R) (u : Heap) (s : Slot) :
    ∃ R', Grown h (h.copyFrom u s).2 R R' ∧ (h.copyFrom u s).1.In R' := by
  have hsize := h.size_copyFrom u s
  let new : Set Addr := {addr | h.cells.size ≤ addr ∧ addr < (h.copyFrom u s).2.cells.size}
  -- Wherever a slot led, its copy leads to a copy, or nowhere.
  have hmoved : ∀ t : Slot, (t.moved (placed (u.parts [s]) h.cells.size)).In new := by
    intro t
    cases t with
    | atom a => trivial
    | ref addr =>
      rw [Slot.moved]
      rcases hplaced : placed (u.parts [s]) h.cells.size addr with _ | other
      · trivial
      · obtain ⟨i, part, hpart, -, rfl⟩ := placed_eq_some hplaced
        have hi : i < (u.parts [s]).length := (List.getElem?_eq_some_iff.mp hpart).1
        exact ⟨Nat.le_add_right _ _, hsize ▸ Nat.add_lt_add_left hi _⟩
  have hold : (h.copyFrom u s).2.IsDomain R :=
    hR.congr (by omega) fun addr haddr => get?_copyFrom_of_lt u s (hR.lt_size addr haddr)
  refine ⟨R ∪ new, ⟨by omega, fun addr hlt => get?_copyFrom_of_lt u s hlt,
    Set.subset_union_left, ?_, ?_, ?_⟩, (hmoved s).mono Set.subset_union_right⟩
  · rintro addr (haddr | haddr)
    · exact .inl haddr
    · exact .inr haddr.1
  · rintro addr (haddr | haddr)
    · exact hold.lt_size addr haddr
    · exact haddr.2
  · rintro addr (haddr | ⟨hle, -⟩) d hd t ht
    · exact (hold.closed addr haddr d hd t ht).mono Set.subset_union_left
    · obtain ⟨i, rfl⟩ := Nat.exists_eq_add_of_le hle
      rw [get?_copyFrom] at hd
      obtain ⟨part, -, rfl⟩ := Option.map_eq_some_iff.mp hd
      rw [Cell.slots_mapSlots] at ht
      obtain ⟨t, -, rfl⟩ := List.mem_map.mp ht
      exact (hmoved t).mono Set.subset_union_right

/-- What a slot leads to stands again in its copy. -/
theorem mirrors_copyFrom (h u : Heap) (s : Slot) :
    u.Mirrors (u.reach s) (placed (u.parts [s]) h.cells.size) (h.copyFrom u s).2 := by
  have hfound := u.found_parts [s]
  refine ⟨fun addr haddr c hcell t ht => ?_, fun addr haddr hplaced => ?_,
    fun addr haddr other hplaced => ?_, fun a _ b _ other ha hb => ?_⟩
  · cases t with
    | atom a => trivial
    | ref b => exact haddr.trans (.there hcell ht (.here b))
  · rcases hcell : u.get? addr with _ | c
    · rfl
    · have hmem := mem_parts (List.mem_singleton_self s) haddr hcell
      exact absurd (List.mem_map_of_mem hmem) (placed_eq_none hplaced)
  · obtain ⟨i, part, hpart, rfl, rfl⟩ := placed_eq_some hplaced
    rw [get?_copyFrom, hpart, hfound.get?_eq part (List.mem_of_getElem? hpart)]
    rfl
  · obtain ⟨i, part, hpart, rfl, rfl⟩ := placed_eq_some ha
    obtain ⟨j, part', hpart', rfl, heq⟩ := placed_eq_some hb
    obtain rfl := Nat.add_left_cancel heq
    rw [hpart] at hpart'
    rw [Option.some.inj hpart']

/-- A copy is read off as its original. -/
theorem view_copyFrom (h u : Heap) (s : Slot) :
    (h.copyFrom u s).2.view (h.copyFrom u s).1 = u.view s :=
  (h.mirrors_copyFrom u s).view_eq (u.in_reach s)

/-- A cell has its copy in the same place if it is copied from where it stands again. -/
theorem Mirrors.placed_eq {C : Set Addr} {place : Addr → Option Addr} (hm : u.Mirrors C place u')
    (hfound : u.Found found) (hin : ∀ part ∈ found, part.1 ∈ C) (haddr : addr ∈ C) {other : Addr}
    (hplace : place addr = some other) (first : Addr) :
    placed (found.map (movedPart place)) first other = placed found first addr := by
  have hindex : ∀ parts : List (Addr × Cell), (∀ part ∈ parts, part ∈ found) →
      parts.findIdx? ((·.1 == other) ∘ movedPart place) = parts.findIdx? (·.1 == addr) := by
    intro parts hsub
    induction parts with
    | nil => rfl
    | cons part parts ih =>
      obtain ⟨hpart, hparts⟩ := List.forall_mem_cons.mp hsub
      rw [List.findIdx?_cons, List.findIdx?_cons, ih hparts, Function.comp_apply,
        hm.movedPart_beq (hin part hpart) (hfound.get?_eq part hpart) haddr hplace]
  rw [placed, placed, List.findIdx?_map, hindex found fun part hpart => hpart]

/-- A copy is the same if it is made from where the original stands again. -/
theorem Mirrors.copyFrom_eq {C : Set Addr} {place : Addr → Option Addr} (hm : u.Mirrors C place u')
    (hs : s.In C) (h : Heap) : h.copyFrom u' (s.moved place) = h.copyFrom u s := by
  have hslots : ∀ t ∈ [s], t.In C := List.forall_mem_singleton.mpr hs
  have hfound := u.found_parts [s]
  have hin : ∀ part ∈ u.parts [s], part.1 ∈ C :=
    u.found_nil.gather_in hm.closed hslots (fun _ hmem => absurd hmem List.not_mem_nil) _
  have hparts : u'.parts [s.moved place] = (u.parts [s]).map (movedPart place) :=
    hm.parts_eq hslots
  -- Whatever a slot of the original leads to, its copy leads to the same copy.
  have hmoved : ∀ t : Slot, t.In C →
      (t.moved place).moved (placed (u'.parts [s.moved place]) h.cells.size) =
        t.moved (placed (u.parts [s]) h.cells.size) := by
    intro t ht
    cases t with
    | atom a => rfl
    | ref addr =>
      rw [hparts, Slot.moved]
      rcases hplace : place addr with _ | other
      · rcases hplaced : placed (u.parts [s]) h.cells.size addr with _ | copy
        · rw [Slot.moved, Slot.moved, hplaced]
        · obtain ⟨i, part, hpart, rfl, -⟩ := placed_eq_some hplaced
          have hcell := hfound.get?_eq part (List.mem_of_getElem? hpart)
          rw [hm.missing _ ht hplace] at hcell
          cases hcell
      · rw [Slot.moved, Slot.moved, hm.placed_eq hfound hin ht hplace]
  have hcells : (u'.parts [s.moved place]).map (fun part => part.2.mapSlots
      (Slot.moved (placed (u'.parts [s.moved place]) h.cells.size))) =
        (u.parts [s]).map fun part =>
          part.2.mapSlots (Slot.moved (placed (u.parts [s]) h.cells.size)) := by
    nth_rewrite 2 [hparts]
    rw [List.map_map]
    refine List.map_congr_left fun part hpart => ?_
    rw [Function.comp_apply, movedPart, Cell.mapSlots_mapSlots]
    exact Cell.mapSlots_congr fun t ht =>
      hmoved t (hm.closed part.1 (hin part hpart) part.2 (hfound.get?_eq part hpart) t ht)
  exact Prod.ext (hmoved s hs)
    (congrArg (fun cells : List Cell => Heap.mk (h.cells ++ cells.toArray)) hcells)

end Stratum.Heap
