import Stratum.Proofs.Heap.Domain

/-!
# Cells of values

Making the cells of a value changes no cell that is there, and the new cells refer to one another
and to the containers around the value only.
-/

namespace Stratum

namespace Heap

/-! ## The number of cells -/

mutual

/-- Making the cells of a value takes none away. -/
theorem size_le_storeIn (above : List Addr) (h : Heap) (v : Value) :
    h.cells.size ≤ (h.storeIn above v).2.cells.size := by
  match v with
  | .atom _ | .enclosing _ => exact le_rfl
  | .list items =>
    have hinner := size_le_storeList (h.cells.size :: above) (h.alloc (.list [])).2 items
    rw [size_alloc] at hinner
    exact (Nat.le_of_succ_le hinner).trans (size_write _ _ _).ge
  | .row items =>
    have hinner := size_le_storeList (h.cells.size :: above) (h.alloc (.row [])).2 items
    rw [size_alloc] at hinner
    exact (Nat.le_of_succ_le hinner).trans (size_write _ _ _).ge
  | .map es =>
    have hinner := size_le_storeEntries (h.cells.size :: above) (h.alloc (.map [])).2 es
    rw [size_alloc] at hinner
    exact (Nat.le_of_succ_le hinner).trans (size_write _ _ _).ge
  | .set members => exact Nat.le_of_succ_le (size_alloc h (.set members)).ge
  | .object kind fields =>
    have hinner := size_le_storeFields (h.cells.size :: above) (h.alloc (.object kind [])).2 fields
    rw [size_alloc] at hinner
    exact (Nat.le_of_succ_le hinner).trans (size_write _ _ _).ge

/-- Making the cells of several values takes none away. -/
theorem size_le_storeList (above : List Addr) (h : Heap) (items : List Value) :
    h.cells.size ≤ (h.storeList above items).2.cells.size := by
  match items with
  | [] => exact le_rfl
  | v :: rest => exact (size_le_storeIn above h v).trans (size_le_storeList above _ rest)

/-- Making the cells of the values of a mapping takes none away. -/
theorem size_le_storeEntries (above : List Addr) (h : Heap) (es : List (Atom × Value)) :
    h.cells.size ≤ (h.storeEntries above es).2.cells.size := by
  match es with
  | [] => exact le_rfl
  | (k, v) :: rest => exact (size_le_storeIn above h v).trans (size_le_storeEntries above _ rest)

/-- Making the cells of the values of an object takes none away. -/
theorem size_le_storeFields (above : List Addr) (h : Heap) (fields : List (String × Value)) :
    h.cells.size ≤ (h.storeFields above fields).2.cells.size := by
  match fields with
  | [] => exact le_rfl
  | (name, v) :: rest => exact (size_le_storeIn above h v).trans (size_le_storeFields above _ rest)

end

/-! ## New cells -/

/-- The containers around what a new container holds are in the domain that grew by it. -/
theorem forall_mem_around {above : List Addr} {R : Set Addr} (habove : ∀ addr ∈ above, addr ∈ R)
    (addr : Addr) : ∀ other ∈ addr :: above, other ∈ insert addr R :=
  List.forall_mem_cons.mpr ⟨Set.mem_insert _ _, fun a ha => Set.mem_insert_of_mem _ (habove a ha)⟩

mutual

/-- The cells of a value lead to one another and to the containers around it. -/
theorem storeIn_grown {h : Heap} {R : Set Addr} {above : List Addr}
    (hR : h.IsDomain R) (habove : ∀ addr ∈ above, addr ∈ R) (v : Value) :
    ∃ R', Grown h (h.storeIn above v).2 R R' ∧ (h.storeIn above v).1.In R' := by
  -- A container is made empty and filled later, so that what it holds may refer to it.
  match v with
  | .atom a => exact ⟨R, hR.grown, trivial⟩
  | .enclosing up =>
    refine ⟨R, hR.grown, ?_⟩
    rw [storeIn]
    rcases habs : above[up - 1]? with _ | addr
    · trivial
    · exact habove addr (List.mem_of_getElem? habs)
  | .list items =>
    have hmade := hR.grown_empty (c := .list []) rfl
    obtain ⟨R', hg, hin⟩ := storeList_grown hmade.domain (forall_mem_around habove _) items
    exact ⟨R', hR.grown_fill rfl hg hin, hg.subset (Set.mem_insert _ _)⟩
  | .row items =>
    have hmade := hR.grown_empty (c := .row []) rfl
    obtain ⟨R', hg, hin⟩ := storeList_grown hmade.domain (forall_mem_around habove _) items
    exact ⟨R', hR.grown_fill rfl hg hin, hg.subset (Set.mem_insert _ _)⟩
  | .map es =>
    have hmade := hR.grown_empty (c := .map []) rfl
    obtain ⟨R', hg, hin⟩ := storeEntries_grown hmade.domain (forall_mem_around habove _) es
    exact ⟨R', hR.grown_fill rfl hg (List.forall_mem_map.mpr hin),
      hg.subset (Set.mem_insert _ _)⟩
  | .set members =>
    exact ⟨_, hR.grown_empty (c := .set members) rfl, Set.mem_insert _ _⟩
  | .object kind fields =>
    have hmade := hR.grown_empty (c := .object kind []) rfl
    obtain ⟨R', hg, hin⟩ := storeFields_grown hmade.domain (forall_mem_around habove _) fields
    exact ⟨R', hR.grown_fill rfl hg (List.forall_mem_map.mpr hin),
      hg.subset (Set.mem_insert _ _)⟩

/-- The cells of several values. -/
theorem storeList_grown {h : Heap} {R : Set Addr} {above : List Addr}
    (hR : h.IsDomain R) (habove : ∀ addr ∈ above, addr ∈ R) (items : List Value) :
    ∃ R', Grown h (h.storeList above items).2 R R' ∧
      ∀ s ∈ (h.storeList above items).1, s.In R' := by
  match items with
  | [] => exact ⟨R, hR.grown, fun _ hs => absurd hs List.not_mem_nil⟩
  | v :: rest =>
    obtain ⟨R₁, hg, hin⟩ := storeIn_grown hR habove v
    obtain ⟨R₂, hg', hrest⟩ :=
      storeList_grown hg.domain (fun a ha => hg.subset (habove a ha)) rest
    exact ⟨R₂, hg.trans hg', List.forall_mem_cons.mpr ⟨hin.mono hg'.subset, hrest⟩⟩

/-- The cells of the values of a mapping. -/
theorem storeEntries_grown {h : Heap} {R : Set Addr} {above : List Addr}
    (hR : h.IsDomain R) (habove : ∀ addr ∈ above, addr ∈ R) (es : List (Atom × Value)) :
    ∃ R', Grown h (h.storeEntries above es).2 R R' ∧
      ∀ e ∈ (h.storeEntries above es).1, e.2.In R' := by
  match es with
  | [] => exact ⟨R, hR.grown, fun _ hs => absurd hs List.not_mem_nil⟩
  | (k, v) :: rest =>
    obtain ⟨R₁, hg, hin⟩ := storeIn_grown hR habove v
    obtain ⟨R₂, hg', hrest⟩ :=
      storeEntries_grown hg.domain (fun a ha => hg.subset (habove a ha)) rest
    exact ⟨R₂, hg.trans hg', List.forall_mem_cons.mpr ⟨hin.mono hg'.subset, hrest⟩⟩

/-- The cells of the values of an object. -/
theorem storeFields_grown {h : Heap} {R : Set Addr} {above : List Addr}
    (hR : h.IsDomain R) (habove : ∀ addr ∈ above, addr ∈ R) (fields : List (String × Value)) :
    ∃ R', Grown h (h.storeFields above fields).2 R R' ∧
      ∀ f ∈ (h.storeFields above fields).1, f.2.In R' := by
  match fields with
  | [] => exact ⟨R, hR.grown, fun _ hs => absurd hs List.not_mem_nil⟩
  | (name, v) :: rest =>
    obtain ⟨R₁, hg, hin⟩ := storeIn_grown hR habove v
    obtain ⟨R₂, hg', hrest⟩ :=
      storeFields_grown hg.domain (fun a ha => hg.subset (habove a ha)) rest
    exact ⟨R₂, hg.trans hg', List.forall_mem_cons.mpr ⟨hin.mono hg'.subset, hrest⟩⟩

end

/-- The cells of a value that stands alone lead to one another. -/
theorem store_grown {h : Heap} {R : Set Addr} (hR : h.IsDomain R) (v : Value) :
    ∃ R', Grown h (h.store v).2 R R' ∧ (h.store v).1.In R' :=
  storeIn_grown hR (fun _ hmem => absurd hmem List.not_mem_nil) v

/-! ## Later heaps -/

/-- A later heap has the cells from a number on as they were. -/
structure KeptFrom (n : Nat) (h later : Heap) : Prop where
  size_le : h.cells.size ≤ later.cells.size
  get?_eq : ∀ addr, n ≤ addr → addr < h.cells.size → later.get? addr = h.get? addr

section KeptFrom

variable {h h' later : Heap} {R R' : Set Addr} {c₀ c : Cell}

/-- A heap has its own cells. -/
theorem keptFrom_self (n : Nat) (h : Heap) : KeptFrom n h h := ⟨le_rfl, fun _ _ _ => rfl⟩

/-- Cells from a number on are cells from a smaller one on. -/
theorem KeptFrom.mono {m n : Nat} (hk : KeptFrom m h later) (hle : m ≤ n) : KeptFrom n h later :=
  ⟨hk.size_le, fun addr hn => hk.get?_eq addr (hle.trans hn)⟩

/-- What is kept after growth was kept before it. -/
theorem KeptFrom.of_grown {n : Nat} (hk : KeptFrom n h' later) (hg : Grown h h' R R') :
    KeptFrom n h later := by
  refine ⟨hg.size_le.trans hk.size_le, fun addr hle hlt => ?_⟩
  calc later.get? addr
    _ = h'.get? addr := hk.get?_eq addr hle (hlt.trans_le hg.size_le)
    _ = h.get? addr := hg.get?_eq addr hlt

/-- Of a container that was filled after what it holds was made, both are kept. -/
theorem KeptFrom.fill (hinner : Grown (h.alloc c₀).2 h' (insert h.cells.size R) R')
    (hk : KeptFrom h.cells.size (h'.write h.cells.size c) later) :
    later.get? h.cells.size = some c ∧ KeptFrom (h.alloc c₀).2.cells.size h' later := by
  have hlt := hinner.domain.lt_size _ (hinner.subset (Set.mem_insert _ _))
  constructor
  · rw [hk.get?_eq _ le_rfl (by simpa using hlt), get?_write h' c hlt]
  · refine ⟨by simpa using hk.size_le, fun addr hle hlt' => ?_⟩
    rw [size_alloc] at hle
    calc later.get? addr
      _ = (h'.write h.cells.size c).get? addr := hk.get?_eq addr (by omega) (by simpa using hlt')
      _ = h'.get? addr := get?_write_of_ne h' c (Nat.ne_of_lt hle)

end KeptFrom

end Heap
end Stratum
