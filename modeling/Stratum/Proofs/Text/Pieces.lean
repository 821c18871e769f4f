import Mathlib.Data.List.DropRight
import Stratum.Text.Blank

/-!
# Pieces of a text

A text that is cut at a separator falls into pieces that hold none. A piece is trimmed by taking
away the blank characters at its ends, and those only: what is left neither begins nor ends with a
blank (`Text.trimmed_trimChars`), and what has none there is left alone.
-/

namespace Stratum.Text

/-- What stands between separators holds none. -/
theorem not_mem_of_mem_splitOn {α : Type} [BEq α] [LawfulBEq α] {separator : α}
    {piece xs : List α} (h : piece ∈ xs.splitOn separator) : separator ∉ piece := by
  induction xs generalizing piece with
  | nil =>
    rw [List.splitOn_nil, List.mem_singleton] at h
    subst h
    exact List.not_mem_nil
  | cons x xs ih =>
    rw [List.splitOn_cons_eq_if_modifyHead] at h
    split at h
    · rcases List.mem_cons.mp h with rfl | h
      · exact List.not_mem_nil
      · exact ih h
    · -- The first piece gets one more element in front, and the others stay.
      rename_i hx
      rcases hsplit : xs.splitOn separator with _ | ⟨first, others⟩
      · rw [hsplit] at h
        cases h
      · rw [hsplit, List.modifyHead_cons] at h
        rw [hsplit] at ih
        rcases List.mem_cons.mp h with rfl | h
        · have hfirst : separator ∉ first := ih List.mem_cons_self
          rintro (_ | ⟨_, hmem⟩)
          · exact hx BEq.rfl
          · exact hfirst hmem
        · exact ih (List.mem_cons_of_mem first h)

/-! ## Trimming -/

variable {cs : List Char}

/-- Neither the first character nor the last one is blank. -/
structure Trimmed (cs : List Char) : Prop where
  head : ∀ c ∈ cs.head?, isBlank c = false
  last : ∀ c ∈ cs.getLast?, isBlank c = false

/-- Trimming drops the blanks at the start, and then those at the end. -/
theorem trimChars_eq (cs : List Char) :
    trimChars cs = (cs.dropWhile isBlank).rdropWhile isBlank := rfl

/-- Trimmed characters are left alone by trimming. -/
theorem Trimmed.trimChars_eq_self (h : Trimmed cs) : trimChars cs = cs := by
  have hhead : cs.dropWhile isBlank = cs := by
    rcases cs with _ | ⟨c, cs⟩
    · rfl
    · exact List.dropWhile_cons_of_neg (by simp [h.head c rfl])
  rw [trimChars_eq, hhead, List.rdropWhile_eq_self_iff]
  intro hne
  rw [h.last _ (List.getLast?_eq_some_getLast hne)]
  exact Bool.false_ne_true

/-- What trimming leaves has no blank at either end. -/
theorem trimmed_trimChars (cs : List Char) : Trimmed (trimChars cs) := by
  rw [trimChars_eq]
  generalize hrest : cs.dropWhile isBlank = rest
  constructor
  · intro c hc
    -- The first of what is left is the first of the rest, which is the first that is not blank.
    obtain ⟨tail, hfront⟩ := List.rdropWhile_prefix isBlank rest
    have hfirst : (cs.dropWhile isBlank).head? = some c := by
      rw [hrest, ← hfront, List.head?_append, Option.mem_def.mp hc]
      rfl
    simpa [hfirst] using List.head?_dropWhile_not isBlank cs
  · intro c hc
    obtain ⟨hne, rfl⟩ := List.mem_getLast?_eq_getLast hc
    exact Bool.eq_false_iff.mpr (List.rdropWhile_last_not isBlank rest hne)

/-- Trimming takes blank characters away, at the start and at the end. -/
theorem exists_blank_ends (cs : List Char) :
    ∃ before after, cs = before ++ trimChars cs ++ after ∧
      (∀ c ∈ before, isBlank c = true) ∧ ∀ c ∈ after, isBlank c = true := by
  refine ⟨cs.takeWhile isBlank, (cs.dropWhile isBlank).rtakeWhile isBlank, ?_, ?_, ?_⟩
  · rw [trimChars_eq, List.append_assoc, List.rdropWhile_append_rtakeWhile,
      List.takeWhile_append_dropWhile]
  · exact fun c => List.mem_takeWhile_imp
  · exact fun c => List.mem_rtakeWhile_imp

/-- What is left after trimming was there before. -/
theorem trimChars_subset (cs : List Char) : trimChars cs ⊆ cs := by
  rw [trimChars_eq]
  exact List.Subset.trans (List.rdropWhile_prefix isBlank _).subset
    (List.dropWhile_suffix isBlank).subset

end Stratum.Text
