import Stratum.Value.Basic

/-!
# The heap

The containers that programs share and change. A slot holds an atom or the address of a cell; cells
are numbered in the order in which they were made, and making one moves none. Two slots with one
address are the same object: a change through one is seen through the other.
-/

namespace Stratum

/-- The number of a cell. -/
abbrev Addr := Nat

/-- An atom, or a container by its address. -/
inductive Slot
  | atom (a : Atom)
  | ref (addr : Addr)

/-- A container by its slots. -/
inductive Cell
  | list (items : List Slot)
  | row (items : List Slot)
  | map (entries : List (Atom × Slot))
  | set (members : List Atom)
  | object (kind : String) (fields : List (String × Slot))

/-- The slots that a cell holds. -/
def Cell.slots : Cell → List Slot
  | .list items => items
  | .row items => items
  | .map es => es.map Prod.snd
  | .set _ => []
  | .object _ fields => fields.map Prod.snd

/-- The cells made so far. -/
structure Heap where
  cells : Array Cell

namespace Heap

/-- No cells. -/
def empty : Heap := ⟨#[]⟩

/-- The cell at an address. -/
def get? (h : Heap) (addr : Addr) : Option Cell := h.cells[addr]?

/-- A new cell, at an address of its own. -/
def alloc (h : Heap) (c : Cell) : Addr × Heap := (h.cells.size, ⟨h.cells.push c⟩)

/-- Another content for the cell at an address. -/
def write (h : Heap) (addr : Addr) (c : Cell) : Heap := ⟨h.cells.setIfInBounds addr c⟩

/-- A new cell holds what it was made with. -/
theorem get?_alloc (h : Heap) (c : Cell) : (h.alloc c).2.get? (h.alloc c).1 = some c := by
  simp [alloc, get?]

/-- Making a cell leaves the others alone. -/
theorem get?_alloc_of_lt (h : Heap) (c : Cell) {addr : Addr} (lt : addr < h.cells.size) :
    (h.alloc c).2.get? addr = h.get? addr := by
  simp [alloc, get?, Array.getElem?_push, Nat.ne_of_lt lt]

/-- Writing to a cell leaves the others alone. -/
theorem get?_write_of_ne (h : Heap) (c : Cell) {addr other : Addr} (ne : addr ≠ other) :
    (h.write addr c).get? other = h.get? other := by
  simp [write, get?, ne]

/-! ## Slots -/

/-- The entries, if the slot holds a mapping. -/
def entries? (h : Heap) : Slot → Option (Entries Slot)
  | .atom _ => none
  | .ref addr =>
    match h.get? addr with
    | some (.map es) => some es
    | _ => none

/-- The name of the kind of what a slot holds. -/
def kindName (h : Heap) : Slot → String
  | .atom a => a.kindName
  | .ref addr =>
    match h.get? addr with
    | some (.list _) => "list"
    | some (.row _) => "tuple"
    | some (.map _) => "dict"
    | some (.set _) => "set"
    | some (.object kind _) => kind
    | none => "NoneType"

/-! ## Between values and cells -/

mutual

/-- Makes the cells of a value; `above` are the addresses of the containers around it, nearest
first. -/
def storeIn (above : List Addr) (h : Heap) : Value → Slot × Heap
  | .atom a => (.atom a, h)
  | .enclosing up => ((above[up - 1]?.map Slot.ref).getD (.atom .null), h)
  | .list items =>
    let (addr, h) := h.alloc (.list [])
    let (slots, h) := storeList (addr :: above) h items
    (.ref addr, h.write addr (.list slots))
  | .row items =>
    let (addr, h) := h.alloc (.row [])
    let (slots, h) := storeList (addr :: above) h items
    (.ref addr, h.write addr (.row slots))
  | .map entries =>
    let (addr, h) := h.alloc (.map [])
    let (es, h) := storeEntries (addr :: above) h entries
    (.ref addr, h.write addr (.map es))
  | .set members =>
    let (addr, h) := h.alloc (.set members)
    (.ref addr, h)
  | .object kind fields =>
    let (addr, h) := h.alloc (.object kind [])
    let (fs, h) := storeFields (addr :: above) h fields
    (.ref addr, h.write addr (.object kind fs))

/-- Makes the cells of several values. -/
def storeList (above : List Addr) (h : Heap) : List Value → List Slot × Heap
  | [] => ([], h)
  | v :: rest =>
    let (s, h) := storeIn above h v
    let (ss, h) := storeList above h rest
    (s :: ss, h)

/-- Makes the cells of the values of a mapping. -/
def storeEntries (above : List Addr) (h : Heap) : List (Atom × Value) → Entries Slot × Heap
  | [] => ([], h)
  | (k, v) :: rest =>
    let (s, h) := storeIn above h v
    let (es, h) := storeEntries above h rest
    ((k, s) :: es, h)

/-- Makes the cells of the values of an object. -/
def storeFields (above : List Addr) (h : Heap) :
    List (String × Value) → List (String × Slot) × Heap
  | [] => ([], h)
  | (name, v) :: rest =>
    let (s, h) := storeIn above h v
    let (fs, h) := storeFields above h rest
    ((name, s) :: fs, h)

end

/-- Makes the cells of a value that stands alone. -/
def store (h : Heap) (v : Value) : Slot × Heap := h.storeIn [] v

/-- The value in a slot, down to as many containers as `fuel` says; `above` as for storing. -/
def viewIn (h : Heap) : (fuel : Nat) → (above : List Addr) → Slot → Value
  | _, _, .atom a => .atom a
  | 0, _, .ref _ => .null
  | fuel + 1, above, .ref addr =>
    match above.idxOf? addr with
    | some i => .enclosing (i + 1)
    | none =>
      let inner := h.viewIn fuel (addr :: above)
      match h.get? addr with
      | some (.list items) => .list (items.map inner)
      | some (.row items) => .row (items.map inner)
      | some (.map es) => .map (es.map fun (k, s) => (k, inner s))
      | some (.set members) => .set members
      | some (.object kind fields) => .object kind (fields.map fun (name, s) => (name, inner s))
      | none => .null

/-- The value in a slot. No container stands in more containers than there are cells without
standing in itself, so the number of cells is fuel enough. -/
def view (h : Heap) (s : Slot) : Value := h.viewIn (h.cells.size + 1) [] s

/-! ## Assignment -/

/-- The place of an item counted from the start, or from the end if it is negative. -/
def place? (size : Nat) : Atom → Option Nat
  | .int n =>
    if 0 ≤ n ∧ n < size then some n.toNat
    else if n < 0 ∧ 0 ≤ n + size then some (n + size).toNat
    else none
  | _ => none

/-- A field with its value replaced, or a new field at the end. -/
def putField (name : String) (s : Slot) : List (String × Slot) → List (String × Slot)
  | [] => [(name, s)]
  | (n, t) :: rest => if n = name then (n, s) :: rest else (n, t) :: putField name s rest

/-- What a container holds under a key, at a place or in a field. -/
def Cell.child? : Cell → Atom → Option Slot
  | .list items, k => (place? items.length k).bind (items[·]?)
  | .row items, k => (place? items.length k).bind (items[·]?)
  | .map es, k => Entries.find? k es
  | .object _ fields, .text name => (fields.find? (·.1 = name)).map Prod.snd
  | _, _ => none

/-- The container with a slot put under a key, at a place or into a field. -/
def Cell.put? : Cell → Atom → Slot → Option Cell
  | .list items, k, s => (place? items.length k).map fun i => .list (items.set i s)
  | .map es, k, s => some (.map (Entries.put k s es))
  | .object kind fields, .text name, s => some (.object kind (putField name s fields))
  | _, _, _ => none

/-- Assigns under the last of the keys, reached from a slot by following the others. -/
def assign (h : Heap) (target : Slot) : (path : List Atom) → Slot → Heap
  | [], _ => h
  | k :: rest, s =>
    match target with
    | .atom _ => h
    | .ref addr =>
      match h.get? addr with
      | none => h
      | some c =>
        match rest with
        | [] => ((Cell.put? c k s).map (h.write addr)).getD h
        | _ :: _ =>
          match Cell.child? c k with
          | some next => h.assign next rest s
          | none => h

end Heap
end Stratum
