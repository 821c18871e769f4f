import Stratum.Heap.Copy

/-!
# Merging

One mapping laid over another. Where both have a mapping under a key, the two are merged in turn;
anywhere else a copy of the upper value takes the place of what was there. What the upper mapping
does not name is still the same object. Two mappings that stand in themselves can have mappings in
common without end, and then a merge fails.
-/

namespace Stratum.Heap

/-- What stands under a key after a slot of `u` is laid over what stood there: a new mapping if both
are mappings, which are merged by `inner`, else a copy. -/
def mergeAt (u : Heap) (inner : Heap → Entries Slot → Entries Slot → Option (Entries Slot × Heap))
    (h : Heap) (lower : Option Slot) (upper : Slot) : Option (Slot × Heap) :=
  match lower.bind h.entries?, u.entries? upper with
  | some base, some es => do
    let (merged, h) ← inner h base es
    let (addr, h) := h.alloc (.map merged)
    return (.ref addr, h)
  | _, _ => some (h.copyFrom u upper)

/-- The entries of a mapping with others laid over them, one by one. -/
def mergeList (u : Heap)
    (inner : Heap → Entries Slot → Entries Slot → Option (Entries Slot × Heap))
    (h : Heap) (lower : Entries Slot) : (upper : Entries Slot) → Option (Entries Slot × Heap)
  | [] => some (lower, h)
  | (k, t) :: rest => do
    let (s, h) ← mergeAt u inner h (lower.find? k) t
    mergeList u inner h (lower.put k s) rest

/-- The entries of a mapping with entries of `u` laid over them, through as many mappings in one
another as `depth` says. -/
def mergeIn (u : Heap) :
    (depth : Nat) → Heap → Entries Slot → Entries Slot → Option (Entries Slot × Heap)
  | 0, _, _, _ => none
  | depth + 1, h, lower, upper => mergeList u (mergeIn u depth) h lower upper

/-- How far a merge goes at most unless it goes on without end: no further than there are pairs of a
cell from below and a cell from above. -/
def mergeDepth (h u : Heap) (lower upper : Entries Slot) : Nat :=
  ((h.parts (lower.map Prod.snd)).length + 1) * ((u.parts (upper.map Prod.snd)).length + 1)

/-- The entries of a mapping with entries of another heap laid over them, unless that would never
end. -/
def mergeFrom (h u : Heap) (lower upper : Entries Slot) : Option (Entries Slot × Heap) :=
  mergeIn u (h.mergeDepth u lower upper) h lower upper

/-- The entries of a mapping with others laid over them, unless that would never end. -/
def mergeEntries (h : Heap) (lower upper : Entries Slot) : Option (Entries Slot × Heap) :=
  h.mergeFrom h lower upper

/-- A new mapping that is made of one mapping laid over another. -/
def merge (h : Heap) (base upper : Slot) : Option (Slot × Heap) :=
  match h.entries? base, h.entries? upper with
  | some lower, some es => do
    let (merged, h) ← h.mergeEntries lower es
    let (addr, h) := h.alloc (.map merged)
    return (.ref addr, h)
  | _, _ => none

end Stratum.Heap
