import Stratum.Proofs.Heap.Domain

/-!
# Containers around a slot

What a slot is read off as depends on the containers around it, but only on where among them stand
the cells that the slot leads to. So two new containers in the place of one another make no
difference to what is in them (`Heap.Around.viewIn_eq`), and neither does the content of a container
that is around the slot.
-/

namespace Stratum

namespace Heap

variable {h h' : Heap} {T C B : Set Addr} {above above' : List Addr} {addr other : Addr} {s : Slot}
  {c : Cell}

/-- A set of cells that are there and refer to no cell outside it, whatever some of them refer
to. -/
structure IsDomainBut (h : Heap) (T C : Set Addr) : Prop where
  lt_size : ∀ addr ∈ C, addr < h.cells.size
  closed : ∀ addr ∈ C, addr ∉ T → ∀ c, h.get? addr = some c → ∀ s ∈ c.slots, s.In C

/-- Such a set is one of every heap that has the same cells there, but for those that do not
count. -/
theorem IsDomainBut.congr (hC : h.IsDomainBut T C) (hsize : h.cells.size ≤ h'.cells.size)
    (hsame : ∀ addr ∈ C, addr ∉ T → h'.get? addr = h.get? addr) : h'.IsDomainBut T C := by
  refine ⟨fun addr haddr => (hC.lt_size addr haddr).trans_le hsize, ?_⟩
  intro addr haddr hT c hcell
  rw [hsame addr haddr hT] at hcell
  exact hC.closed addr haddr hT c hcell

/-- Two lists of containers have the cells of a set at the same places, among them all of those
whose content does not count and no other ones. -/
structure Around (h : Heap) (T C : Set Addr) (above above' : List Addr) : Prop where
  domain : h.IsDomainBut T C
  idxOf?_eq : ∀ addr ∈ C, above'.idxOf? addr = above.idxOf? addr
  mem : ∀ addr ∈ T, addr ∈ above
  mem_of_mem : ∀ addr ∈ above, addr ∈ C → addr ∈ T

/-- What leads into the set is read off alike under both. -/
theorem Around.viewIn_eq (hA : h.Around T C above above') (hs : s.In C) (fuel : Nat) :
    h.viewIn fuel above' s = h.viewIn fuel above s := by
  obtain ⟨hC, hindex, hT, -⟩ := hA
  induction fuel generalizing above above' s with
  | zero => cases s <;> rfl
  | succ fuel ih =>
    cases s with
    | atom a => rfl
    | ref addr =>
      rw [viewIn_ref, viewIn_ref, hindex addr hs]
      rcases habsent : above.idxOf? addr with _ | i
      · have haddr : addr ∉ T := fun hmem => List.idxOf?_eq_none_iff.mp habsent (hT addr hmem)
        rcases hcell : h.get? addr with _ | c
        · rfl
        · refine Cell.read_congr fun t ht => ?_
          refine ih (hC.closed addr hs haddr c hcell t ht) (fun other hother => ?_)
            fun other hother => List.mem_cons_of_mem addr (hT other hother)
          rw [List.idxOf?_cons, List.idxOf?_cons, hindex other hother]
      · rfl

end Heap
end Stratum
