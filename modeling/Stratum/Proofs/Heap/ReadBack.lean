import Stratum.Proofs.Heap.Store

/-!
# Reading back

The cells of a value are read off as the value, and go on being so as long as they are kept.
-/

namespace Stratum

/-- A value refers to none but some number of containers around it, besides its own. -/
inductive Value.Enclosed : (depth : Nat) → Value → Prop
  | atom {depth : Nat} (a : Atom) : Enclosed depth (.atom a)
  | list {depth : Nat} {items : List Value} (h : ∀ v ∈ items, Enclosed (depth + 1) v) :
      Enclosed depth (.list items)
  | row {depth : Nat} {items : List Value} (h : ∀ v ∈ items, Enclosed (depth + 1) v) :
      Enclosed depth (.row items)
  | map {depth : Nat} {es : List (Atom × Value)} (h : ∀ e ∈ es, Enclosed (depth + 1) e.2) :
      Enclosed depth (.map es)
  | set {depth : Nat} (members : List Atom) : Enclosed depth (.set members)
  | object {depth : Nat} {kind : String} {fields : List (String × Value)}
      (h : ∀ f ∈ fields, Enclosed (depth + 1) f.2) : Enclosed depth (.object kind fields)
  | enclosing {depth up : Nat} (hpos : 0 < up) (hle : up ≤ depth) : Enclosed depth (.enclosing up)

namespace Heap

section New

variable {h h' later : Heap} {R R' : Set Addr} {above : List Addr} {c₀ c : Cell}

/-- A container that was new is read off by its cell, with one container more around what it
holds. -/
theorem viewIn_new (hR : h.IsDomain R) (habove : ∀ addr ∈ above, addr ∈ R) (hnodup : above.Nodup)
    (hcell : later.get? h.cells.size = some c) (hsize : h.cells.size < later.cells.size)
    {fuel : Nat} (hfuel : later.cells.size < fuel + above.length) :
    (h.cells.size :: above).Nodup ∧ ∃ n, later.cells.size < n + (h.cells.size :: above).length ∧
      later.viewIn fuel above (.ref h.cells.size) =
        c.read (later.viewIn n (h.cells.size :: above)) := by
  have hnew : h.cells.size ∉ above := fun hmem =>
    absurd (hR.lt_size _ (habove _ hmem)) (Nat.lt_irrefl _)
  have hlength : above.length ≤ h.cells.size :=
    length_le_of_nodup hnodup fun addr haddr => hR.lt_size addr (habove addr haddr)
  obtain ⟨n, rfl⟩ : ∃ n, fuel = n + 1 := ⟨fuel - 1, by omega⟩
  refine ⟨List.nodup_cons.mpr ⟨hnew, hnodup⟩, n, by rw [List.length_cons]; omega, ?_⟩
  rw [viewIn_ref, List.idxOf?_eq_none_iff.mpr hnew, hcell]
  rfl

/-- So is one that was filled after what it holds was made. -/
theorem viewIn_fill (hR : h.IsDomain R) (habove : ∀ addr ∈ above, addr ∈ R) (hnodup : above.Nodup)
    (hinner : Grown (h.alloc c₀).2 h' (insert h.cells.size R) R')
    (hk : KeptFrom h.cells.size (h'.write h.cells.size c) later) {fuel : Nat}
    (hfuel : later.cells.size < fuel + above.length) :
    (h.cells.size :: above).Nodup ∧ ∃ n, later.cells.size < n + (h.cells.size :: above).length ∧
      later.viewIn fuel above (.ref h.cells.size) =
        c.read (later.viewIn n (h.cells.size :: above)) := by
  obtain ⟨hcell, hk'⟩ := KeptFrom.fill hinner hk
  have hlt := hinner.domain.lt_size _ (hinner.subset (Set.mem_insert _ _))
  exact viewIn_new hR habove hnodup hcell (hlt.trans_le hk'.size_le) hfuel

/-- A container around a value is read off as the number of containers up to it. -/
theorem viewIn_getElem (h : Heap) (hnodup : above.Nodup) (i : Nat) (hi : i < above.length)
    (n : Nat) : h.viewIn (n + 1) above (.ref above[i]) = .enclosing (i + 1) := by
  have hindex : above.idxOf? above[i] = some i := by
    refine List.idxOf?_eq_some_iff.mpr ⟨hi, by simp, fun j hj => ?_⟩
    simpa using fun heq => absurd (hnodup.getElem_inj_iff.mp heq) (Nat.ne_of_lt hj)
  rw [viewIn_ref, hindex]

end New

mutual

/-- The cells of a value are read off as the value. -/
theorem viewIn_storeIn {h later : Heap} {R : Set Addr} {above : List Addr} (hR : h.IsDomain R)
    (habove : ∀ addr ∈ above, addr ∈ R) (hnodup : above.Nodup) (v : Value)
    (hv : v.Enclosed above.length) (hk : KeptFrom h.cells.size (h.storeIn above v).2 later)
    {fuel : Nat} (hfuel : later.cells.size < fuel + above.length) :
    later.viewIn fuel above (h.storeIn above v).1 = v := by
  -- A new container is not among those around it, and each of them is a cell that was there, so
  -- that there is fuel for its values too.
  match v with
  | .atom a => cases fuel <;> rfl
  | .enclosing up =>
    cases hv with
    | enclosing hpos hle =>
      have hlength : above.length ≤ h.cells.size :=
        length_le_of_nodup hnodup fun addr haddr => hR.lt_size addr (habove addr haddr)
      have hsize : h.cells.size ≤ later.cells.size := hk.size_le
      obtain ⟨n, rfl⟩ : ∃ n, fuel = n + 1 := ⟨fuel - 1, by omega⟩
      obtain ⟨i, rfl⟩ : ∃ i, up = i + 1 := ⟨up - 1, by omega⟩
      have hread := later.viewIn_getElem hnodup i hle n
      rwa [storeIn, Nat.add_sub_cancel, List.getElem?_eq_getElem hle]
  | .list items =>
    have hmade := hR.grown_empty (c := .list []) rfl
    have habove' := forall_mem_around habove h.cells.size
    obtain ⟨R', hg, -⟩ := storeList_grown hmade.domain habove' items
    obtain ⟨hnodup', n, hfuel', hread⟩ := viewIn_fill hR habove hnodup hg hk hfuel
    refine hread.trans (congrArg Value.list ?_)
    cases hv with
    | list hitems =>
      exact map_viewIn_storeList hmade.domain habove' hnodup' items hitems (KeptFrom.fill hg hk).2
        hfuel'
  | .row items =>
    have hmade := hR.grown_empty (c := .row []) rfl
    have habove' := forall_mem_around habove h.cells.size
    obtain ⟨R', hg, -⟩ := storeList_grown hmade.domain habove' items
    obtain ⟨hnodup', n, hfuel', hread⟩ := viewIn_fill hR habove hnodup hg hk hfuel
    refine hread.trans (congrArg Value.row ?_)
    cases hv with
    | row hitems =>
      exact map_viewIn_storeList hmade.domain habove' hnodup' items hitems (KeptFrom.fill hg hk).2
        hfuel'
  | .map es =>
    have hmade := hR.grown_empty (c := .map []) rfl
    have habove' := forall_mem_around habove h.cells.size
    obtain ⟨R', hg, -⟩ := storeEntries_grown hmade.domain habove' es
    obtain ⟨hnodup', n, hfuel', hread⟩ := viewIn_fill hR habove hnodup hg hk hfuel
    refine hread.trans (congrArg Value.map ?_)
    cases hv with
    | map hes =>
      exact map_viewIn_storeEntries hmade.domain habove' hnodup' es hes (KeptFrom.fill hg hk).2
        hfuel'
  | .set members =>
    have hlt : h.cells.size < (h.alloc (.set members)).2.cells.size := by simp
    have hcell := (hk.get?_eq h.cells.size le_rfl hlt).trans (h.get?_alloc (.set members))
    obtain ⟨-, n, -, hread⟩ :=
      viewIn_new hR habove hnodup hcell (hlt.trans_le hk.size_le) hfuel
    exact hread
  | .object kind fields =>
    have hmade := hR.grown_empty (c := .object kind []) rfl
    have habove' := forall_mem_around habove h.cells.size
    obtain ⟨R', hg, -⟩ := storeFields_grown hmade.domain habove' fields
    obtain ⟨hnodup', n, hfuel', hread⟩ := viewIn_fill hR habove hnodup hg hk hfuel
    refine hread.trans (congrArg (Value.object kind) ?_)
    cases hv with
    | object hfields =>
      exact map_viewIn_storeFields hmade.domain habove' hnodup' fields hfields
        (KeptFrom.fill hg hk).2 hfuel'

/-- The cells of several values are read off as the values. -/
theorem map_viewIn_storeList {h later : Heap} {R : Set Addr} {above : List Addr}
    (hR : h.IsDomain R) (habove : ∀ addr ∈ above, addr ∈ R) (hnodup : above.Nodup)
    (items : List Value) (hitems : ∀ v ∈ items, v.Enclosed above.length)
    (hk : KeptFrom h.cells.size (h.storeList above items).2 later) {fuel : Nat}
    (hfuel : later.cells.size < fuel + above.length) :
    (h.storeList above items).1.map (later.viewIn fuel above) = items := by
  match items with
  | [] => rfl
  | v :: rest =>
    obtain ⟨R₁, hg, -⟩ := storeIn_grown hR habove v
    have habove' := fun addr haddr => hg.subset (habove addr haddr)
    obtain ⟨R₂, hg', -⟩ := storeList_grown hg.domain habove' rest
    obtain ⟨hv, hrest⟩ := List.forall_mem_cons.mp hitems
    exact congrArg₂ List.cons (viewIn_storeIn hR habove hnodup v hv (hk.of_grown hg') hfuel)
      (map_viewIn_storeList hg.domain habove' hnodup rest hrest (hk.mono hg.size_le) hfuel)

/-- The cells of the values of a mapping are read off as the values. -/
theorem map_viewIn_storeEntries {h later : Heap} {R : Set Addr} {above : List Addr}
    (hR : h.IsDomain R) (habove : ∀ addr ∈ above, addr ∈ R) (hnodup : above.Nodup)
    (es : List (Atom × Value)) (hes : ∀ e ∈ es, e.2.Enclosed above.length)
    (hk : KeptFrom h.cells.size (h.storeEntries above es).2 later) {fuel : Nat}
    (hfuel : later.cells.size < fuel + above.length) :
    (h.storeEntries above es).1.map (fun (k, s) => (k, later.viewIn fuel above s)) = es := by
  match es with
  | [] => rfl
  | (k, v) :: rest =>
    obtain ⟨R₁, hg, -⟩ := storeIn_grown hR habove v
    have habove' := fun addr haddr => hg.subset (habove addr haddr)
    obtain ⟨R₂, hg', -⟩ := storeEntries_grown hg.domain habove' rest
    obtain ⟨hv, hrest⟩ := List.forall_mem_cons.mp hes
    exact congrArg₂ List.cons
      (congrArg (Prod.mk k) (viewIn_storeIn hR habove hnodup v hv (hk.of_grown hg') hfuel))
      (map_viewIn_storeEntries hg.domain habove' hnodup rest hrest (hk.mono hg.size_le) hfuel)

/-- The cells of the values of an object are read off as the values. -/
theorem map_viewIn_storeFields {h later : Heap} {R : Set Addr} {above : List Addr}
    (hR : h.IsDomain R) (habove : ∀ addr ∈ above, addr ∈ R) (hnodup : above.Nodup)
    (fields : List (String × Value)) (hfields : ∀ f ∈ fields, f.2.Enclosed above.length)
    (hk : KeptFrom h.cells.size (h.storeFields above fields).2 later) {fuel : Nat}
    (hfuel : later.cells.size < fuel + above.length) :
    (h.storeFields above fields).1.map (fun (name, s) => (name, later.viewIn fuel above s)) =
      fields := by
  match fields with
  | [] => rfl
  | (name, v) :: rest =>
    obtain ⟨R₁, hg, -⟩ := storeIn_grown hR habove v
    have habove' := fun addr haddr => hg.subset (habove addr haddr)
    obtain ⟨R₂, hg', -⟩ := storeFields_grown hg.domain habove' rest
    obtain ⟨hv, hrest⟩ := List.forall_mem_cons.mp hfields
    exact congrArg₂ List.cons
      (congrArg (Prod.mk name) (viewIn_storeIn hR habove hnodup v hv (hk.of_grown hg') hfuel))
      (map_viewIn_storeFields hg.domain habove' hnodup rest hrest (hk.mono hg.size_le) hfuel)

end

/-- The cells of a value that refers to no container around it are read off as the value. -/
theorem view_store {h : Heap} {R : Set Addr} (hR : h.IsDomain R) {v : Value} (hv : v.Enclosed 0) :
    (h.store v).2.view (h.store v).1 = v :=
  viewIn_storeIn hR (fun _ hmem => absurd hmem List.not_mem_nil) List.nodup_nil v hv
    (keptFrom_self _ _) (Nat.lt_succ_self _)

end Heap
end Stratum
