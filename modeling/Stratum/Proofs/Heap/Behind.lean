import Stratum.Proofs.Heap.Copy

/-!
# Cells behind others

A heap whose cells stand behind those of another one: the same cells, each at an address that is
greater by the number of cells before it. What makes objects does the same there as on its own, but
for the addresses, and what is read off is the same (`Heap.view_behind`).
-/

namespace Stratum

/-- The slot that leads so many cells further on. -/
def Slot.shift (n : Nat) : Slot → Slot
  | .atom a => .atom a
  | .ref addr => .ref (n + addr)

/-- The named slots that lead so many cells further on. -/
def shiftNamed {κ : Type} (n : Nat) (named : List (κ × Slot)) : List (κ × Slot) :=
  named.map fun (k, s) => (k, s.shift n)

/-- The cell whose slots lead so many cells further on. -/
def Cell.shift (n : Nat) : Cell → Cell := Cell.mapSlots (Slot.shift n)

/-- A slot leads so many cells further on if the addresses are greater by their number. -/
theorem Slot.moved_add (n : Nat) : Slot.moved (fun addr => some (n + addr)) = Slot.shift n := by
  funext s
  cases s <;> rfl

/-- A slot that leads so many cells further on and then as many cells back is the same slot. -/
theorem Slot.moved_shift (n : Nat) (s : Slot) :
    (s.shift n).moved (fun addr => some (addr - n)) = s := by
  cases s with
  | atom a => rfl
  | ref addr => simp [shift, moved]

namespace Entries

/-- What is found under a key among slots that lead further on. -/
theorem find?_shiftNamed (n : Nat) (k : Atom) (es : Entries Slot) :
    find? k (shiftNamed n es) = (es.find? k).map (Slot.shift n) := find?_map (Slot.shift n) k es

/-- A put among slots that lead further on. -/
theorem put_shiftNamed (n : Nat) (k : Atom) (s : Slot) (es : Entries Slot) :
    put k (s.shift n) (shiftNamed n es) = shiftNamed n (es.put k s) := put_map (Slot.shift n) k s es

/-- The keys are the same if the slots lead further on. -/
theorem keys_shiftNamed (n : Nat) (es : Entries Slot) : keys (shiftNamed n es) = es.keys := by
  simp [keys, shiftNamed]

end Entries

namespace Heap

/-- The heap with the cells of another one behind its own. -/
def behind (h fresh : Heap) : Heap := ⟨h.cells ++ fresh.cells.map (Cell.shift h.cells.size)⟩

variable {h fresh : Heap} {F R : Set Addr} {s : Slot}

/-! ## One step -/

/-- The cells of both heaps are there. -/
@[simp] theorem size_behind (h fresh : Heap) :
    (h.behind fresh).cells.size = h.cells.size + fresh.cells.size := by
  simp [behind]

/-- No cells behind others leave them as they are. -/
@[simp] theorem behind_empty (h : Heap) : h.behind .empty = h := by
  simp [behind, empty]

/-- The cells in front are as they were. -/
theorem get?_behind_of_lt (fresh : Heap) {addr : Addr} (hlt : addr < h.cells.size) :
    (h.behind fresh).get? addr = h.get? addr := by
  simp [behind, get?, Array.getElem?_append, hlt]

/-- The cells behind lead further on. -/
theorem get?_behind (h fresh : Heap) (addr : Addr) :
    (h.behind fresh).get? (h.cells.size + addr) =
      (fresh.get? addr).map (Cell.shift h.cells.size) := by
  simp [behind, get?, Array.getElem?_append]

/-- A cell that is made behind others. -/
theorem alloc_behind (h fresh : Heap) (c : Cell) :
    (h.behind fresh).alloc (c.shift h.cells.size) =
      (h.cells.size + (fresh.alloc c).1, h.behind (fresh.alloc c).2) := by
  simp [alloc, behind]

/-- A cell that is written behind others. -/
theorem write_behind (h fresh : Heap) (addr : Addr) (c : Cell) :
    (h.behind fresh).write (h.cells.size + addr) (c.shift h.cells.size) =
      h.behind (fresh.write addr c) := by
  unfold write behind
  congr 1
  refine Array.ext_getElem? fun i => ?_
  simp only [Array.getElem?_append, Array.getElem?_setIfInBounds, Array.getElem?_map,
    Array.size_append, Array.size_map]
  grind

/-- A heap stands again behind another one. -/
theorem mirrors_behind (h fresh : Heap) :
    fresh.Mirrors Set.univ (fun addr => some (h.cells.size + addr)) (h.behind fresh) := by
  refine ⟨fun addr _ c _ s _ => ?_, nofun, fun addr _ other hother => ?_,
    fun a _ b _ other ha hb => ?_⟩
  · cases s <;> trivial
  · obtain rfl := Option.some.inj hother
    rw [get?_behind, Slot.moved_add]
    rfl
  · exact Nat.add_left_cancel (Option.some.inj (ha.trans hb.symm))

/-- Every slot leads somewhere. -/
theorem in_univ (s : Slot) : s.In Set.univ := by
  cases s <;> trivial

/-- The entries of a mapping behind others. -/
theorem entries?_behind (h fresh : Heap) (s : Slot) :
    (h.behind fresh).entries? (s.shift h.cells.size) =
      (fresh.entries? s).map (shiftNamed h.cells.size) := by
  have hentries := (h.mirrors_behind fresh).entries?_eq (in_univ s)
  rwa [Slot.moved_add] at hentries

/-- The kind of what is behind others. -/
theorem kindName_behind (h fresh : Heap) (s : Slot) :
    (h.behind fresh).kindName (s.shift h.cells.size) = fresh.kindName s := by
  cases s with
  | atom a => rfl
  | ref addr =>
    rw [Slot.shift, kindName, kindName, get?_behind]
    rcases fresh.get? addr with _ | c
    · rfl
    · cases c <;> rfl

/-! ## Cells of values -/

mutual

/-- The cells of a value are the same behind others. -/
theorem storeIn_behind (h fresh : Heap) (above : List Addr) (v : Value) :
    (h.behind fresh).storeIn (above.map (h.cells.size + ·)) v =
      ((fresh.storeIn above v).1.shift h.cells.size, h.behind (fresh.storeIn above v).2) := by
  -- A container is made empty and filled later: each of the two steps is the same behind others.
  match v with
  | .atom a => rfl
  | .enclosing up =>
    rw [storeIn, storeIn, List.getElem?_map]
    rcases above[up - 1]? with _ | addr <;> rfl
  | .list items =>
    rw [storeIn, storeIn, ← write_behind]
    dsimp only
    rw [show (h.behind fresh).alloc (.list []) = _ from alloc_behind h fresh (.list [])]
    dsimp only
    rw [show _ :: _ = ((fresh.alloc (.list [])).1 :: above).map (h.cells.size + ·) from rfl,
      storeList_behind]
    rfl
  | .row items =>
    rw [storeIn, storeIn, ← write_behind]
    dsimp only
    rw [show (h.behind fresh).alloc (.row []) = _ from alloc_behind h fresh (.row [])]
    dsimp only
    rw [show _ :: _ = ((fresh.alloc (.row [])).1 :: above).map (h.cells.size + ·) from rfl,
      storeList_behind]
    rfl
  | .map es =>
    rw [storeIn, storeIn, ← write_behind]
    dsimp only
    rw [show (h.behind fresh).alloc (.map []) = _ from alloc_behind h fresh (.map [])]
    dsimp only
    rw [show _ :: _ = ((fresh.alloc (.map [])).1 :: above).map (h.cells.size + ·) from rfl,
      storeEntries_behind]
    rfl
  | .set members =>
    exact congrArg (fun p => (Slot.ref p.1, p.2)) (alloc_behind h fresh (.set members))
  | .object kind fields =>
    rw [storeIn, storeIn, ← write_behind]
    dsimp only
    rw [show (h.behind fresh).alloc (.object kind []) = _ from
      alloc_behind h fresh (.object kind [])]
    dsimp only
    rw [show _ :: _ = ((fresh.alloc (.object kind [])).1 :: above).map (h.cells.size + ·) from rfl,
      storeFields_behind]
    rfl

/-- The cells of several values are the same behind others. -/
theorem storeList_behind (h fresh : Heap) (above : List Addr) (items : List Value) :
    (h.behind fresh).storeList (above.map (h.cells.size + ·)) items =
      ((fresh.storeList above items).1.map (Slot.shift h.cells.size),
        h.behind (fresh.storeList above items).2) := by
  match items with
  | [] => rfl
  | v :: rest =>
    rw [storeList, storeIn_behind h fresh above v]
    dsimp only
    rw [storeList_behind h _ above rest]
    rfl

/-- The cells of the values of a mapping are the same behind others. -/
theorem storeEntries_behind (h fresh : Heap) (above : List Addr) (es : List (Atom × Value)) :
    (h.behind fresh).storeEntries (above.map (h.cells.size + ·)) es =
      (shiftNamed h.cells.size (fresh.storeEntries above es).1,
        h.behind (fresh.storeEntries above es).2) := by
  match es with
  | [] => rfl
  | (k, v) :: rest =>
    rw [storeEntries, storeIn_behind h fresh above v]
    dsimp only
    rw [storeEntries_behind h _ above rest]
    rfl

/-- The cells of the values of an object are the same behind others. -/
theorem storeFields_behind (h fresh : Heap) (above : List Addr) (fields : List (String × Value)) :
    (h.behind fresh).storeFields (above.map (h.cells.size + ·)) fields =
      (shiftNamed h.cells.size (fresh.storeFields above fields).1,
        h.behind (fresh.storeFields above fields).2) := by
  match fields with
  | [] => rfl
  | (name, v) :: rest =>
    rw [storeFields, storeIn_behind h fresh above v]
    dsimp only
    rw [storeFields_behind h _ above rest]
    rfl

end

/-- The cells of a value that stands alone are the same behind others. -/
theorem store_behind (h fresh : Heap) (v : Value) :
    (h.behind fresh).store v =
      ((fresh.store v).1.shift h.cells.size, h.behind (fresh.store v).2) :=
  storeIn_behind h fresh [] v

/-! ## Copies -/

/-- There are as many parts of slots behind others. -/
theorem length_parts_behind (h fresh : Heap) (slots : List Slot) :
    ((h.behind fresh).parts (slots.map (Slot.shift h.cells.size))).length =
      (fresh.parts slots).length := by
  have hparts := (h.mirrors_behind fresh).parts_eq fun s (_ : s ∈ slots) => in_univ s
  rw [Slot.moved_add] at hparts
  rw [hparts, List.length_map]

/-- A copy that is made behind others. -/
theorem copyFrom_behind (h fresh u : Heap) (s : Slot) :
    (h.behind fresh).copyFrom u s =
      ((fresh.copyFrom u s).1.shift h.cells.size, h.behind (fresh.copyFrom u s).2) := by
  have hmoved : Slot.moved (placed (u.parts [s]) (h.cells.size + fresh.cells.size)) =
      Slot.shift h.cells.size ∘ Slot.moved (placed (u.parts [s]) fresh.cells.size) := by
    funext t
    cases t with
    | atom a => rfl
    | ref addr =>
      rw [Function.comp_apply, Slot.moved, Slot.moved, placed, placed]
      generalize (u.parts [s]).findIdx? (·.1 == addr) = index
      rcases index with _ | i
      · rfl
      · exact congrArg Slot.ref (Nat.add_assoc _ _ _)
  have hcells : ∀ c : Cell, c.mapSlots (Slot.moved (placed (u.parts [s])
      (h.cells.size + fresh.cells.size))) =
        (c.mapSlots (Slot.moved (placed (u.parts [s]) fresh.cells.size))).shift h.cells.size := by
    intro c
    rw [hmoved, Cell.shift, Cell.mapSlots_mapSlots]
  refine Prod.ext ?_ ?_
  · show s.moved (placed (u.parts [s]) (h.behind fresh).cells.size) = _
    rw [size_behind, hmoved]
    rfl
  · simp [copyFrom, behind, hcells, Function.comp_def]

/-- A copy is one that is made on its own, behind what is there. -/
theorem copyFrom_eq_behind (h u : Heap) (s : Slot) :
    h.copyFrom u s = ((empty.copyFrom u s).1.shift h.cells.size,
      h.behind (empty.copyFrom u s).2) := by
  rw [← copyFrom_behind, behind_empty]

/-! ## Reading off -/

/-- What is read off is the same behind others. -/
theorem view_behind (h fresh : Heap) (s : Slot) :
    (h.behind fresh).view (s.shift h.cells.size) = fresh.view s := by
  have hview := (h.mirrors_behind fresh).view_eq (in_univ s)
  rwa [Slot.moved_add] at hview

/-! ## Growing -/

/-- The addresses that are so many cells further on. -/
def further (n : Nat) (F : Set Addr) : Set Addr := {addr | ∃ other ∈ F, addr = n + other}

/-- A slot that leads into a domain leads into the one that is further on. -/
theorem in_further (n : Nat) (hs : s.In F) : (s.shift n).In (further n F) := by
  cases s with
  | atom a => trivial
  | ref addr => exact ⟨addr, hs, rfl⟩

/-- Cells behind others let every domain grow by the domains of theirs. -/
theorem IsDomain.grown_behind (hR : h.IsDomain R) (hF : fresh.IsDomain F) :
    Grown h (h.behind fresh) R (R ∪ further h.cells.size F) := by
  refine ⟨by simp, fun addr hlt => get?_behind_of_lt fresh hlt, Set.subset_union_left, ?_, ?_, ?_⟩
  · rintro addr (haddr | ⟨other, -, rfl⟩)
    · exact .inl haddr
    · exact .inr (Nat.le_add_right _ _)
  · rintro addr (haddr | ⟨other, hother, rfl⟩)
    · exact (hR.lt_size addr haddr).trans_le (by simp)
    · simpa using hF.lt_size other hother
  · rintro addr (haddr | ⟨other, hother, rfl⟩) c hcell t ht
    · rw [get?_behind_of_lt fresh (hR.lt_size addr haddr)] at hcell
      exact (hR.closed addr haddr c hcell t ht).mono Set.subset_union_left
    · rw [get?_behind] at hcell
      obtain ⟨d, hd, rfl⟩ := Option.map_eq_some_iff.mp hcell
      rw [Cell.shift, Cell.slots_mapSlots] at ht
      obtain ⟨u, hu, rfl⟩ := List.mem_map.mp ht
      exact (in_further _ (hF.closed other hother d hd u hu)).mono Set.subset_union_right

/-- The cells of a domain that is made behind others stand in a heap of their own too. -/
theorem IsDomain.mirrors_of_behind (hR : (h.behind fresh).IsDomain R)
    (hle : ∀ addr ∈ R, h.cells.size ≤ addr) :
    (h.behind fresh).Mirrors R (fun addr => some (addr - h.cells.size)) fresh := by
  have hback : Slot.moved (fun addr => some (addr - h.cells.size)) ∘ Slot.shift h.cells.size =
      Slot.moved some := by
    funext s
    simp [Slot.moved_shift]
  refine ⟨hR.closed, nofun, fun addr haddr other hother => ?_,
    fun a ha b hb other hother hother' => ?_⟩
  · obtain ⟨i, rfl⟩ := Nat.exists_eq_add_of_le (hle addr haddr)
    obtain rfl : i = other := by simpa using hother
    rw [get?_behind]
    rcases fresh.get? i with _ | c
    · rfl
    · rw [Option.map_some, Option.map_some, Cell.shift, Cell.mapSlots_mapSlots, hback,
        Cell.mapSlots_moved_some]
  · have heq : a - h.cells.size = b - h.cells.size := Option.some.inj (hother.trans hother'.symm)
    rw [← Nat.sub_add_cancel (hle a ha), heq, Nat.sub_add_cancel (hle b hb)]

end Heap
end Stratum
