import Mathlib.Data.Finset.Card
import Mathlib.Data.Finset.Range
import Mathlib.Data.Set.Lattice
import Mathlib.Order.CompletePartialOrder
import Stratum.Heap

/-!
# Domains of a heap

A domain is a set of cells that refer to no cell outside it. What is reached from a slot stays in
every domain that the slot leads into. A step that makes cells without changing any lets a domain
grow by new cells (`Heap.Grown`).
-/

namespace Stratum

namespace Entries

variable {α : Type} {v : α}

/-- What is found under a key is what an entry has that is under it. -/
theorem exists_of_find? {k : Atom} {es : Entries α} (hfind : es.find? k = some v) :
    ∃ e ∈ es, e.1.sameKey k = true ∧ e.2 = v := by
  induction es with
  | nil => cases hfind
  | cons e es ih =>
    obtain ⟨a, w⟩ := e
    rw [Entries.find?] at hfind
    split at hfind
    · exact ⟨(a, w), List.mem_cons_self, ‹_›, Option.some.inj hfind⟩
    · obtain ⟨e, he, hv⟩ := ih hfind
      exact ⟨e, List.mem_cons_of_mem _ he, hv⟩

/-- What is found under a key is what an entry has. -/
theorem mem_of_find? {k : Atom} {es : Entries α} (hfind : es.find? k = some v) :
    ∃ e ∈ es, e.2 = v := by
  obtain ⟨e, he, -, hv⟩ := exists_of_find? hfind
  exact ⟨e, he, hv⟩

/-- An entry after a put has what was put, or is as before. -/
theorem mem_put {k : Atom} {es : Entries α} {e : Atom × α} (he : e ∈ es.put k v) :
    e.2 = v ∨ ∃ d ∈ es, d.2 = e.2 := by
  induction es with
  | nil =>
    obtain rfl := List.mem_singleton.mp he
    exact .inl rfl
  | cons d es ih =>
    obtain ⟨a, w⟩ := d
    rw [put] at he
    split at he
    · rcases List.mem_cons.mp he with rfl | he
      · exact .inl rfl
      · exact .inr ⟨e, List.mem_cons_of_mem _ he, rfl⟩
    · rcases List.mem_cons.mp he with rfl | he
      · exact .inr ⟨_, List.mem_cons_self, rfl⟩
      · refine (ih he).imp_right ?_
        rintro ⟨d, hd, heq⟩
        exact ⟨d, List.mem_cons_of_mem _ hd, heq⟩

end Entries

/-- A slot leads into a set of cells if it holds an atom or the address of one of them. -/
def Slot.In (R : Set Addr) : Slot → Prop
  | .atom _ => True
  | .ref addr => addr ∈ R

/-- A slot that leads into a set of cells leads into each that holds it. -/
theorem Slot.In.mono {R R' : Set Addr} {s : Slot} (h : s.In R) (hR : R ⊆ R') : s.In R' := by
  cases s with
  | atom a => trivial
  | ref addr => exact hR h

/-- The value of a cell by the values in its slots. -/
def Cell.read (inner : Slot → Value) : Cell → Value
  | .list items => .list (items.map inner)
  | .row items => .row (items.map inner)
  | .map es => .map (es.map fun (k, s) => (k, inner s))
  | .set members => .set members
  | .object kind fields => .object kind (fields.map fun (name, s) => (name, inner s))

/-- The value of a cell depends on the values in its slots only. -/
theorem Cell.read_congr {f g : Slot → Value} {c : Cell} (h : ∀ s ∈ c.slots, f s = g s) :
    c.read f = c.read g := by
  cases c with
  | list items => exact congrArg Value.list (List.map_congr_left h)
  | row items => exact congrArg Value.row (List.map_congr_left h)
  | map es =>
    refine congrArg Value.map (List.map_congr_left fun e he => ?_)
    exact congrArg (Prod.mk e.1) (h e.2 (List.mem_map_of_mem he))
  | set members => rfl
  | object kind fields =>
    refine congrArg (Value.object kind) (List.map_congr_left fun f hf => ?_)
    exact congrArg (Prod.mk f.1) (h f.2 (List.mem_map_of_mem hf))

namespace Heap

variable {h h' h'' : Heap} {R R' R'' : Set Addr} {s : Slot} {c : Cell} {addr other : Addr}

/-- A cell at an address is one of those that are there. -/
theorem lt_size_of_get? (hcell : h.get? addr = some c) : addr < h.cells.size := by
  by_contra hge
  simp [get?, hge] at hcell

/-! ## Reaching -/

/-- A cell is reached from a slot if it is what the slot leads to or is reached from what that cell
holds. -/
inductive Reaches (h : Heap) : Slot → Addr → Prop
  | here (addr : Addr) : Reaches h (.ref addr) addr
  | there {addr other : Addr} {c : Cell} {s : Slot} (hcell : h.get? addr = some c)
      (hslot : s ∈ c.slots) (hreach : Reaches h s other) : Reaches h (.ref addr) other

/-- What is reached from a reached cell is reached. -/
theorem Reaches.trans (hfirst : h.Reaches s addr) (hthen : h.Reaches (.ref addr) other) :
    h.Reaches s other := by
  induction hfirst with
  | here => exact hthen
  | there hcell hslot _ ih => exact .there hcell hslot (ih hthen)

/-- The cells that are reached from a slot. -/
def reach (h : Heap) (s : Slot) : Set Addr := {addr | h.Reaches s addr}

/-- A slot leads into what is reached from it. -/
theorem in_reach (h : Heap) (s : Slot) : s.In (h.reach s) := by
  cases s with
  | atom a => trivial
  | ref addr => exact .here addr

/-! ## Domains -/

/-- A set of cells that are there and refer to no cell outside it. -/
structure IsDomain (h : Heap) (R : Set Addr) : Prop where
  lt_size : ∀ addr ∈ R, addr < h.cells.size
  closed : ∀ addr ∈ R, ∀ c, h.get? addr = some c → ∀ s ∈ c.slots, s.In R

/-- No cell at all is a domain. -/
theorem isDomain_empty (h : Heap) : h.IsDomain ∅ :=
  ⟨fun _ hmem => absurd hmem (Set.notMem_empty _), fun _ hmem => absurd hmem (Set.notMem_empty _)⟩

/-- What is reached from a slot stays in a domain that the slot leads into. -/
theorem IsDomain.reach_subset (hR : h.IsDomain R) (hs : s.In R) : h.reach s ⊆ R := by
  intro addr hreach
  induction hreach with
  | here => exact hs
  | there hcell hslot _ ih => exact ih (hR.closed _ hs _ hcell _ hslot)

/-- Cells from which no other ones are reached are a domain. -/
theorem isDomain_of_reaches (hlt : ∀ addr ∈ R, addr < h.cells.size)
    (hreach : ∀ addr ∈ R, ∀ other, h.Reaches (.ref addr) other → other ∈ R) : h.IsDomain R := by
  refine ⟨hlt, fun addr haddr c hcell t ht => ?_⟩
  cases t with
  | atom a => trivial
  | ref other => exact hreach addr haddr other (.there hcell ht (.here other))

/-- What is reached from a slot that leads into a domain is a domain. -/
theorem IsDomain.reach (hR : h.IsDomain R) (hs : s.In R) : h.IsDomain (h.reach s) :=
  isDomain_of_reaches (fun addr haddr => hR.lt_size addr (hR.reach_subset hs haddr))
    fun _ haddr _ hother => haddr.trans hother

/-- A domain is one of every heap that has the same cells there. -/
theorem IsDomain.congr (hR : h.IsDomain R) (hsize : h.cells.size ≤ h'.cells.size)
    (hsame : ∀ addr ∈ R, h'.get? addr = h.get? addr) : h'.IsDomain R := by
  refine ⟨fun addr haddr => (hR.lt_size addr haddr).trans_le hsize, ?_⟩
  intro addr haddr c hcell
  rw [hsame addr haddr] at hcell
  exact hR.closed addr haddr c hcell

/-- The entries of a mapping in a domain lead into it. -/
theorem IsDomain.entries (hR : h.IsDomain R) (hs : s.In R) {es : Entries Slot}
    (hes : h.entries? s = some es) : ∀ e ∈ es, e.2.In R := by
  intro e he
  cases s with
  | atom a => cases hes
  | ref addr =>
    rcases hcell : h.get? addr with _ | c
    · simp [entries?, hcell] at hes
    · cases c with
      | map fs =>
        obtain rfl : fs = es := by simpa [entries?, hcell] using hes
        exact hR.closed addr hs _ hcell e.2 (List.mem_map_of_mem he)
      | _ => simp [entries?, hcell] at hes

/-- Whether every slot leads to a cell that is there. -/
def isClosed (h : Heap) : Bool :=
  h.cells.toList.all fun c => c.slots.all fun
    | .atom _ => true
    | .ref addr => addr < h.cells.size

/-- All cells are a domain if every slot leads to one of them. -/
theorem isDomain_of_isClosed (hclosed : h.isClosed = true) :
    h.IsDomain {addr | addr < h.cells.size} := by
  refine ⟨fun addr haddr => haddr, fun addr _ c hcell s hs => ?_⟩
  have hmem : c ∈ h.cells.toList := Array.mem_toList_iff.mpr (Array.mem_of_getElem? hcell)
  have hslot := List.all_eq_true.mp (List.all_eq_true.mp hclosed c hmem) s hs
  cases s with
  | atom a => trivial
  | ref other => exact (decide_eq_true_iff.mp hslot : other < h.cells.size)

/-! ## Cells that change -/

/-- Making a cell adds one to their number. -/
@[simp] theorem size_alloc (h : Heap) (c : Cell) :
    (h.alloc c).2.cells.size = h.cells.size + 1 := by
  simp [alloc]

/-- Writing moves no cell. -/
@[simp] theorem size_write (h : Heap) (addr : Addr) (c : Cell) :
    (h.write addr c).cells.size = h.cells.size := by
  simp [write]

/-- A cell that is written holds what was written. -/
theorem get?_write (h : Heap) (c : Cell) (hlt : addr < h.cells.size) :
    (h.write addr c).get? addr = some c := by
  simp [write, get?, hlt]

/-- The cell of a mapping. -/
theorem get?_of_entries? {es : Entries Slot} (hes : h.entries? (.ref addr) = some es) :
    h.get? addr = some (.map es) := by
  rw [entries?] at hes
  rcases hcell : h.get? addr with _ | c
  · rw [hcell] at hes
    cases hes
  · rw [hcell] at hes
    cases c with
    | map fs => exact congrArg (fun es => some (Cell.map es)) (Option.some.inj hes)
    | _ => cases hes

/-- A new mapping holds what it was made with. -/
theorem entries?_alloc (h : Heap) (es : Entries Slot) :
    (h.alloc (.map es)).2.entries? (.ref (h.alloc (.map es)).1) = some es := by
  rw [entries?, get?_alloc]

/-- A cell that a mapping is written to holds its entries. -/
theorem entries?_write (hlt : addr < h.cells.size) (es : Entries Slot) :
    (h.write addr (.map es)).entries? (.ref addr) = some es := by
  rw [entries?, get?_write h _ hlt]

/-- Another content for a cell keeps a domain if the content leads into it. -/
theorem IsDomain.write (hR : h.IsDomain R) (hc : ∀ s ∈ c.slots, s.In R) (addr : Addr) :
    (h.write addr c).IsDomain R := by
  refine ⟨fun other hother => by simpa using hR.lt_size other hother, ?_⟩
  intro other hother d hd
  by_cases hne : addr = other
  · subst hne
    rw [get?_write h c (hR.lt_size addr hother)] at hd
    obtain rfl := Option.some.inj hd
    exact hc
  · rw [get?_write_of_ne h c hne] at hd
    exact hR.closed other hother d hd

/-! ## Growing -/

/-- From one heap to another cells are made and none is changed, and a domain of the first grows by
new cells to a domain of the second. -/
structure Grown (h h' : Heap) (R R' : Set Addr) : Prop where
  size_le : h.cells.size ≤ h'.cells.size
  get?_eq : ∀ addr < h.cells.size, h'.get? addr = h.get? addr
  subset : R ⊆ R'
  new : ∀ addr ∈ R', addr ∈ R ∨ h.cells.size ≤ addr
  domain : h'.IsDomain R'

/-- Nothing made is growth too. -/
theorem IsDomain.grown (hR : h.IsDomain R) : Grown h h R R :=
  ⟨le_rfl, fun _ _ => rfl, subset_rfl, fun _ => .inl, hR⟩

/-- Growth after growth is growth. -/
theorem Grown.trans (hg : Grown h h' R R') (hg' : Grown h' h'' R' R'') : Grown h h'' R R'' := by
  refine ⟨hg.size_le.trans hg'.size_le, ?_, hg.subset.trans hg'.subset, ?_, hg'.domain⟩
  · intro addr hlt
    calc h''.get? addr
      _ = h'.get? addr := hg'.get?_eq addr (hlt.trans_le hg.size_le)
      _ = h.get? addr := hg.get?_eq addr hlt
  · intro addr haddr
    rcases hg'.new addr haddr with haddr | hle
    · exact hg.new addr haddr
    · exact .inr (hg.size_le.trans hle)

/-- A domain of the first heap is one of the second. -/
theorem Grown.isDomain (hg : Grown h h' R R') {A : Set Addr} (hA : h.IsDomain A) : h'.IsDomain A :=
  hA.congr hg.size_le fun addr haddr => hg.get?_eq addr (hA.lt_size addr haddr)

/-- Growth of one domain lets every other one stay as it is. -/
theorem Grown.stay (hg : Grown h h' R R') {A : Set Addr} (hA : h.IsDomain A) : Grown h h' A A :=
  ⟨hg.size_le, hg.get?_eq, subset_rfl, fun _ => .inl, hg.isDomain hA⟩

/-- A new cell that leads into a domain makes it grow by itself. -/
theorem IsDomain.grown_alloc (hR : h.IsDomain R) (hc : ∀ s ∈ c.slots, s.In R) :
    Grown h (h.alloc c).2 R (insert h.cells.size R) := by
  have hsize := size_alloc h c
  have hold : (h.alloc c).2.IsDomain R :=
    hR.congr (by omega) fun addr haddr => get?_alloc_of_lt h c (hR.lt_size addr haddr)
  refine ⟨by omega, fun addr hlt => get?_alloc_of_lt h c hlt, Set.subset_insert _ _, ?_, ?_, ?_⟩
  · rintro addr (rfl | haddr)
    · exact .inr le_rfl
    · exact .inl haddr
  · rintro addr (rfl | haddr)
    · exact hsize ▸ Nat.lt_succ_self _
    · exact hold.lt_size addr haddr
  · rintro addr (rfl | haddr) d hd t ht
    · obtain rfl : c = d := Option.some.inj ((get?_alloc h c).symm.trans hd)
      exact (hc t ht).mono (Set.subset_insert _ _)
    · exact (hold.closed addr haddr d hd t ht).mono (Set.subset_insert _ _)

/-- A new cell without slots makes a domain grow by itself. -/
theorem IsDomain.grown_empty (hR : h.IsDomain R) (hc : c.slots = []) :
    Grown h (h.alloc c).2 R (insert h.cells.size R) :=
  hR.grown_alloc fun _ hs => absurd (hc ▸ hs) List.not_mem_nil

/-- A container that is made empty, filled after what it holds is made, and leads into the domain
then, is growth. -/
theorem IsDomain.grown_fill (hR : h.IsDomain R) {c₀ : Cell} (hc₀ : c₀.slots = [])
    (hinner : Grown (h.alloc c₀).2 h' (insert h.cells.size R) R')
    (hc : ∀ s ∈ c.slots, s.In R') : Grown h (h'.write h.cells.size c) R R' := by
  have hg := (hR.grown_empty hc₀).trans hinner
  -- The container itself is new, so that filling it changes no cell that was there.
  refine ⟨by simpa using hg.size_le, ?_, hg.subset, hg.new, hg.domain.write hc _⟩
  intro addr hlt
  rw [get?_write_of_ne h' c (Nat.ne_of_gt hlt), hg.get?_eq addr hlt]

/-! ## Changing -/

/-- From one heap to another no cell outside a domain is changed, and the domain grows by new cells
to a domain of the second. -/
structure Changed (h h' : Heap) (R R' : Set Addr) : Prop where
  size_le : h.cells.size ≤ h'.cells.size
  get?_eq : ∀ addr < h.cells.size, addr ∉ R → h'.get? addr = h.get? addr
  subset : R ⊆ R'
  new : ∀ addr ∈ R', addr ∈ R ∨ h.cells.size ≤ addr
  domain : h'.IsDomain R'

/-- Growth changes no cell at all. -/
theorem Grown.changed (hg : Grown h h' R R') : Changed h h' R R' :=
  ⟨hg.size_le, fun addr hlt _ => hg.get?_eq addr hlt, hg.subset, hg.new, hg.domain⟩

/-- Changes after changes are changes. -/
theorem Changed.trans (hc : Changed h h' R R') (hc' : Changed h' h'' R' R'') :
    Changed h h'' R R'' := by
  refine ⟨hc.size_le.trans hc'.size_le, ?_, hc.subset.trans hc'.subset, ?_, hc'.domain⟩
  · intro addr hlt haddr
    -- A cell that was there before the first changes is in the grown domain only if it was in it.
    have haddr' : addr ∉ R' := by
      intro hmem
      rcases hc.new addr hmem with hmem | hle
      · exact haddr hmem
      · omega
    calc h''.get? addr
      _ = h'.get? addr := hc'.get?_eq addr (hlt.trans_le hc.size_le) haddr'
      _ = h.get? addr := hc.get?_eq addr hlt haddr
  · intro addr haddr
    rcases hc'.new addr haddr with haddr | hle
    · exact hc.new addr haddr
    · exact .inr (hc.size_le.trans hle)

/-- Another content for a cell of a domain that leads into the domain is a change in it. -/
theorem IsDomain.changed_write (hR : h.IsDomain R) (haddr : addr ∈ R)
    (hc : ∀ s ∈ c.slots, s.In R) : Changed h (h.write addr c) R R := by
  refine ⟨(size_write h addr c).ge, fun other _ hother => ?_, subset_rfl, fun _ => .inl,
    hR.write hc addr⟩
  exact get?_write_of_ne h c fun heq => hother (heq ▸ haddr)

/-- Changes in one domain leave the cells of another one alone. -/
theorem Changed.same (hc : Changed h h' R R') {A : Set Addr} (hA : h.IsDomain A)
    (hdisjoint : Disjoint A R) : ∀ addr ∈ A, h'.get? addr = h.get? addr := fun addr haddr =>
  hc.get?_eq addr (hA.lt_size addr haddr) (Set.disjoint_left.mp hdisjoint haddr)

/-- Changes in one domain leave another one a domain. -/
theorem Changed.isDomain (hc : Changed h h' R R') {A : Set Addr} (hA : h.IsDomain A)
    (hdisjoint : Disjoint A R) : h'.IsDomain A :=
  hA.congr hc.size_le (hc.same hA hdisjoint)

/-- A domain does not grow into another one. -/
theorem Changed.disjoint (hc : Changed h h' R R') {A : Set Addr} (hA : h.IsDomain A)
    (hdisjoint : Disjoint A R) : Disjoint A R' := by
  rw [Set.disjoint_left] at hdisjoint ⊢
  intro addr haddr haddr'
  rcases hc.new addr haddr' with hmem | hle
  · exact hdisjoint haddr hmem
  · exact absurd (hA.lt_size addr haddr) (Nat.not_lt.mpr hle)

/-! ## Reading off -/

/-- A container is read off as the number of containers up to it if it is around itself, and else by
its cell. -/
theorem viewIn_ref (h : Heap) (fuel : Nat) (above : List Addr) (addr : Addr) :
    h.viewIn (fuel + 1) above (.ref addr) = match above.idxOf? addr with
      | some i => .enclosing (i + 1)
      | none => ((h.get? addr).map (Cell.read (h.viewIn fuel (addr :: above)))).getD .null := by
  rw [viewIn]
  rcases above.idxOf? addr with _ | i
  · rcases h.get? addr with _ | c
    · rfl
    · cases c <;> rfl
  · rfl

/-- Containers around a value are no more than the cells. -/
theorem length_le_of_nodup {above : List Addr} (hnodup : above.Nodup) {n : Nat}
    (hlt : ∀ addr ∈ above, addr < n) : above.length ≤ n := by
  rw [← List.toFinset_card_of_nodup hnodup, ← Finset.card_range n]
  exact Finset.card_le_card fun addr haddr => by simpa using hlt addr (by simpa using haddr)

/-! ## Paths of keys -/

/-- What stands at a path of keys through mappings. -/
def at? (h : Heap) : Slot → (path : List Atom) → Option Slot
  | s, [] => some s
  | s, k :: rest => ((h.entries? s).bind (Entries.find? k)).bind (h.at? · rest)

/-- What stands at a path from a slot that leads into a domain leads into it. -/
theorem IsDomain.at? (hR : h.IsDomain R) {path : List Atom} (hs : s.In R) {t : Slot}
    (ht : h.at? s path = some t) : t.In R := by
  induction path generalizing s with
  | nil =>
    obtain rfl := Option.some.inj ht
    exact hs
  | cons k rest ih =>
    obtain ⟨next, hnext, ht⟩ := Option.bind_eq_some_iff.mp ht
    obtain ⟨es, hes, hfind⟩ := Option.bind_eq_some_iff.mp hnext
    obtain ⟨e, he, rfl⟩ := Entries.mem_of_find? hfind
    exact ih (hR.entries hs hes e he) ht

end Heap
end Stratum
