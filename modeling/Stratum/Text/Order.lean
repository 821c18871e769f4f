import Stratum.Text.CodePoint

/-!
# Order of texts

Texts sorted by their code points. Whatever has a text can be sorted by it.
-/

namespace Stratum.Text

variable {α : Type}

/-- An element put into its place in a list that is sorted by a key. -/
def insertSorted (key : α → List Nat) (x : α) : List α → List α
  | [] => [x]
  | y :: rest => if key x < key y then x :: y :: rest else y :: insertSorted key x rest

/-- Elements in the order of a key. -/
def sortBy (key : α → List Nat) (xs : List α) : List α := xs.foldr (insertSorted key) []

/-- Texts in the order of their code points. -/
def sort (ss : List String) : List String := sortBy (fun s => s.toList.map Char.toNat) ss

/-- Texts of code points in their order. -/
def sortPoints (ps : List (List CodePoint)) : List (List CodePoint) :=
  sortBy (fun p => p.map CodePoint.toNat) ps

/-- Putting an element into its place adds that element and nothing else. -/
theorem insertSorted_perm (key : α → List Nat) (x : α) (xs : List α) :
    (insertSorted key x xs).Perm (x :: xs) := by
  induction xs with
  | nil => exact .refl _
  | cons y rest ih =>
    unfold insertSorted
    split
    · exact .refl _
    · exact (ih.cons y).trans (.swap x y rest)

/-- Sorting keeps the elements. -/
theorem sortBy_perm (key : α → List Nat) (xs : List α) : (sortBy key xs).Perm xs := by
  induction xs with
  | nil => exact .refl _
  | cons x rest ih => exact (insertSorted_perm key x (sortBy key rest)).trans (ih.cons x)

end Stratum.Text
