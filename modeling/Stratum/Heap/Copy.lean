import Stratum.Heap

/-!
# Copies

A copy of what is in a slot has a cell for each cell that the slot leads to, and its cells lead to
one another as those do: what was one object is one object in the copy, and what stood in itself
stands in itself.
-/

namespace Stratum

/-- The slot that leads to where a cell stands now; one that led nowhere holds nothing. -/
def Slot.moved (place : Addr → Option Addr) : Slot → Slot
  | .atom a => .atom a
  | .ref addr =>
    match place addr with
    | some other => .ref other
    | none => .atom .null

/-- The cell with other slots in the places of its own. -/
def Cell.mapSlots (f : Slot → Slot) : Cell → Cell
  | .list items => .list (items.map f)
  | .row items => .row (items.map f)
  | .map es => .map (es.map fun (k, s) => (k, f s))
  | .set members => .set members
  | .object kind fields => .object kind (fields.map fun (name, s) => (name, f s))

namespace Heap

/-- The cell that a slot leads to, with its address, unless it was found before. -/
def unfound? (h : Heap) (found : List (Addr × Cell)) : Slot → Option (Addr × Cell)
  | .atom _ => none
  | .ref addr =>
    if found.any (·.1 == addr) then none else (h.get? addr).map fun c => (addr, c)

/-- The cells that are found from some slots, one after the other, behind those that were found
before. -/
def gather (h : Heap) (slots : List Slot) :
    (fuel : Nat) → (found : List (Addr × Cell)) → List (Addr × Cell)
  | 0, found => found
  | fuel + 1, found =>
    match (slots ++ found.flatMap (·.2.slots)).findSome? (h.unfound? found) with
    | none => found
    | some part => h.gather slots fuel (found ++ [part])

/-- The cells that some slots lead to, each once. They are no more than all cells, so the number of
cells is fuel enough. -/
def parts (h : Heap) (slots : List Slot) : List (Addr × Cell) := h.gather slots h.cells.size []

/-- Where a cell stands if some cells are made again in their order, the first at an address. -/
def placed (parts : List (Addr × Cell)) (first : Addr) (addr : Addr) : Option Addr :=
  (parts.findIdx? (·.1 == addr)).map (first + ·)

/-- A copy of what is in a slot of a heap, made in another one. -/
def copyFrom (h u : Heap) (s : Slot) : Slot × Heap :=
  let parts := u.parts [s]
  let move := Slot.moved (placed parts h.cells.size)
  (move s, ⟨h.cells ++ (parts.map fun part => part.2.mapSlots move).toArray⟩)

/-- A copy of what is in a slot, sharing no cell with it. -/
def copy (h : Heap) (s : Slot) : Slot × Heap := h.copyFrom h s

end Heap
end Stratum
