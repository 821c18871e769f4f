import Stratum.Proofs.Heap.Store

/-!
# What a holder may do

Whoever holds an object may change all that is reached from it, and make objects of his own
meanwhile. Assigning a new value at a path is one way to do so (`Mutation.assign`).
-/

namespace Stratum

/-- A change of what is reached from a slot. -/
structure Mutation where
  /-- The heap afterwards. -/
  apply : Heap → Slot → Heap
  /-- No cell is changed but those that are reached, which lead to one another and to new cells
  afterwards. -/
  confined : ∀ (h : Heap) (s : Slot), h.IsDomain (h.reach s) →
    ∃ R, Heap.Changed h (apply h s) (h.reach s) R

namespace Heap

variable {h : Heap} {R : Set Addr} {s t : Slot} {c c' : Cell} {k : Atom}

/-- Changes in a part of a domain are changes in the domain. -/
theorem Changed.within {h' : Heap} {A B : Set Addr} (hc : Changed h h' B R) (hA : h.IsDomain A)
    (hsub : B ⊆ A) : Changed h h' A (A ∪ R) := by
  refine ⟨hc.size_le, fun addr hlt haddr => hc.get?_eq addr hlt fun hB => haddr (hsub hB),
    Set.subset_union_left, ?_, ?_, ?_⟩
  · rintro addr (haddr | haddr)
    · exact .inl haddr
    · exact (hc.new addr haddr).imp_left fun hB => hsub hB
  · rintro addr (haddr | haddr)
    · exact (hA.lt_size addr haddr).trans_le hc.size_le
    · exact hc.domain.lt_size addr haddr
  · intro addr haddr d hd t ht
    by_cases hR : addr ∈ R
    · exact (hc.domain.closed addr hR d hd t ht).mono Set.subset_union_right
    · -- A cell of the domain that is not of the part is as it was.
      have hmem : addr ∈ A := haddr.resolve_right hR
      rw [hc.get?_eq addr (hA.lt_size addr hmem) fun hB => hR (hc.subset hB)] at hd
      exact (hA.closed addr hmem d hd t ht).mono Set.subset_union_left

/-- What a container holds under a key is in one of its slots. -/
theorem mem_slots_of_child? (hchild : Cell.child? c k = some s) : s ∈ c.slots := by
  cases c with
  | list items | row items =>
    obtain ⟨i, -, hi⟩ := Option.bind_eq_some_iff.mp hchild
    exact List.mem_of_getElem? hi
  | map es =>
    obtain ⟨e, he, rfl⟩ := Entries.mem_of_find? hchild
    exact List.mem_map_of_mem he
  | set members => cases hchild
  | object kind fields =>
    cases k with
    | text name =>
      obtain ⟨f, hf, rfl⟩ := Option.map_eq_some_iff.mp hchild
      exact List.mem_map_of_mem (List.mem_of_find?_eq_some hf)
    | _ => cases hchild

/-- A field after a put is the new one, or has what it had. -/
theorem mem_putField {name : String} {f : String × Slot} {fields : List (String × Slot)}
    (hf : f ∈ putField name t fields) : f.2 = t ∨ f.2 ∈ fields.map Prod.snd := by
  induction fields with
  | nil =>
    obtain rfl := List.mem_singleton.mp hf
    exact .inl rfl
  | cons g fields ih =>
    rw [putField] at hf
    split at hf
    · rcases List.mem_cons.mp hf with rfl | hf
      · exact .inl rfl
      · exact .inr (List.mem_cons_of_mem _ (List.mem_map_of_mem hf))
    · rcases List.mem_cons.mp hf with rfl | hf
      · exact .inr List.mem_cons_self
      · exact (ih hf).imp_right (List.mem_cons_of_mem _)

/-- The slots of a container after a put are what was put and those that it had. -/
theorem mem_slots_put? (hput : Cell.put? c k t = some c') (hs : s ∈ c'.slots) :
    s = t ∨ s ∈ c.slots := by
  cases c with
  | list items =>
    obtain ⟨i, -, rfl⟩ := Option.map_eq_some_iff.mp hput
    exact (List.mem_or_eq_of_mem_set hs).symm
  | row items | set members => cases hput
  | map es =>
    obtain rfl := Option.some.inj hput
    obtain ⟨e, he, rfl⟩ := List.mem_map.mp hs
    refine (Entries.mem_put he).imp_right ?_
    rintro ⟨d, hd, heq⟩
    exact heq ▸ List.mem_map_of_mem hd
  | object kind fields =>
    cases k with
    | text name =>
      obtain rfl := Option.some.inj hput
      obtain ⟨f, hf, rfl⟩ := List.mem_map.mp hs
      exact mem_putField hf
    | _ => cases hput

/-- An assignment changes one cell of a domain that it starts in at most. -/
theorem changed_assign (hR : h.IsDomain R) (ht : t.In R) (path : List Atom) {target : Slot}
    (htarget : target.In R) : Changed h (h.assign target path t) R R := by
  induction path generalizing target with
  | nil => exact hR.grown.changed
  | cons k rest ih =>
    unfold assign
    cases target with
    | atom a => exact hR.grown.changed
    | ref addr =>
      dsimp only
      rcases hcell : h.get? addr with _ | c
      · exact hR.grown.changed
      · have hslots := hR.closed addr htarget c hcell
        rcases rest with _ | ⟨j, rest⟩
        · dsimp only
          rcases hput : Cell.put? c k t with _ | c'
          · exact hR.grown.changed
          · refine hR.changed_write htarget fun s hs => ?_
            rcases mem_slots_put? hput hs with rfl | hs
            · exact ht
            · exact hslots s hs
        · dsimp only
          rcases hchild : Cell.child? c k with _ | next
          · exact hR.grown.changed
          · exact ih (hslots next (mem_slots_of_child? hchild))

end Heap

/-- The assignment of a new value at a path. -/
def Mutation.assign (path : List Atom) (v : Value) : Mutation where
  apply h s := (h.store v).2.assign s path (h.store v).1
  confined := by
    intro h s hreach
    obtain ⟨A, hg, hin⟩ := Heap.store_grown hreach v
    have hassign := Heap.changed_assign hg.domain hin path ((h.in_reach s).mono hg.subset)
    exact ⟨A, hg.changed.trans hassign⟩

end Stratum
