import Stratum.Directories
import Stratum.Proofs.Text.Pieces

/-!
# The directory list read back

A list of directories is written with a colon between each two. It is read back as it was exactly if
it is not empty and each directory can be an entry, which holds no colon and no blank at its ends
(`Directories.parse_join_iff`). All that reading gives are such entries, one for each piece between
colons, so that nothing is lost or added when a list is written and read once more.
-/

namespace Stratum

namespace Directories

open Text (isBlank Trimmed trimChars)

/-- What can be an entry of a directory list: a text without a colon and without blanks at its ends.
It may be empty. -/
structure IsEntry (entry : String) : Prop where
  colon_not_mem : ':' ∉ entry.toList
  trimmed : Trimmed entry.toList

/-- Directories in one text, with colons between them. -/
def join (entries : List String) : String := ":".intercalate entries

/-- The entry that stands between two colons. -/
def entryOf (piece : List Char) : String := String.ofList (trimChars piece)

variable {a : String} {value : Option String} {entries : List String}

/-- Of a text come the entries of its pieces. -/
theorem parse_some (a : String) : parse (some a) = (a.toList.splitOn ':').map entryOf := rfl

/-! ## What is read -/

/-- A piece without a colon gives an entry. -/
theorem isEntry_entryOf {piece : List Char} (h : ':' ∉ piece) : IsEntry (entryOf piece) := by
  constructor <;> rw [entryOf, String.toList_ofList]
  · exact fun hcolon => h (Text.trimChars_subset piece hcolon)
  · exact Text.trimmed_trimChars piece

/-- What is read are entries. -/
theorem isEntry_of_mem_parse {entry : String} (h : entry ∈ parse value) : IsEntry entry := by
  obtain ⟨piece, hpiece, rfl⟩ := List.mem_map.mp h
  exact isEntry_entryOf (Text.not_mem_of_mem_splitOn hpiece)

/-- There is always an entry. -/
theorem parse_ne_nil (value : Option String) : parse value ≠ [] :=
  mt List.map_eq_nil_iff.mp (List.splitOn_ne_nil ':' _)

/-- Of two texts with a colon between them come the entries of the one and then those of the
other. -/
theorem parse_append (a b : String) :
    parse (some (a ++ ":" ++ b)) = parse (some a) ++ parse (some b) := by
  have hcolon : (a ++ ":" ++ b).toList = a.toList ++ ':' :: b.toList := by
    simp only [String.toList_append, List.append_assoc]
    rfl
  rw [parse_some, hcolon, List.splitOn_append_cons_self, List.map_append, ← parse_some,
    ← parse_some]

/-- A text without a colon is one entry, but for blanks at its ends. -/
theorem parse_of_not_mem (h : ':' ∉ a.toList) :
    ∃ before entry after, parse (some a) = [entry] ∧ a = before ++ entry ++ after ∧
      (∀ c ∈ before.toList, isBlank c = true) ∧ ∀ c ∈ after.toList, isBlank c = true := by
  obtain ⟨before, after, hends, hbefore, hafter⟩ := Text.exists_blank_ends a.toList
  refine ⟨String.ofList before, entryOf a.toList, String.ofList after, ?_, ?_, ?_, ?_⟩
  · rw [parse_some, List.splitOn_eq_singleton h]
    rfl
  · rw [entryOf, ← String.ofList_append, ← String.ofList_append, ← hends, String.ofList_toList]
  · rwa [String.toList_ofList]
  · rwa [String.toList_ofList]

/-! ## What is written -/

/-- An entry is left as it is. -/
theorem IsEntry.entryOf_toList {entry : String} (h : IsEntry entry) :
    entryOf entry.toList = entry := by
  rw [entryOf, h.trimmed.trimChars_eq_self, String.ofList_toList]

/-- The pieces of directories written in one text are the directories, if none has a colon in it. -/
theorem splitOn_join (hne : entries ≠ []) (h : ∀ entry ∈ entries, ':' ∉ entry.toList) :
    (join entries).toList.splitOn ':' = entries.map String.toList := by
  rw [join, String.toList_intercalate]
  refine List.splitOn_intercalate ':' (fun piece hpiece => ?_) (mt List.map_eq_nil_iff.mp hne)
  obtain ⟨entry, hentry, rfl⟩ := List.mem_map.mp hpiece
  exact h entry hentry

/-- Directories are read back from one text exactly if there is one, and each can be an entry. -/
theorem parse_join_iff :
    parse (some (join entries)) = entries ↔ entries ≠ [] ∧ ∀ entry ∈ entries, IsEntry entry := by
  constructor
  · intro h
    rw [← h]
    exact ⟨parse_ne_nil _, fun entry => isEntry_of_mem_parse⟩
  · rintro ⟨hne, h⟩
    have hkept : ∀ entry ∈ entries, entryOf entry.toList = entry :=
      fun entry hentry => (h entry hentry).entryOf_toList
    rw [parse_some, splitOn_join hne fun entry hentry => (h entry hentry).colon_not_mem,
      List.map_map]
    exact (List.map_congr_left hkept).trans (List.map_id entries)

/-- Directory lists are read as they are written. Cutting a text at a colon cuts its list there, and
a text without a colon is one entry, but for blanks at its ends. A list that is not empty, of texts
without colons and without blanks at their ends, is read back from its text, and no other list is.
What is read of any text, or of none, is such a list, so it is read back too. -/
theorem list_read_back (a b : String) (entries : List String) (value : Option String) :
    parse (some (a ++ ":" ++ b)) = parse (some a) ++ parse (some b) ∧
    (':' ∉ a.toList → ∃ before entry after, parse (some a) = [entry] ∧
      a = before ++ entry ++ after ∧
      (∀ c ∈ before.toList, isBlank c = true) ∧ ∀ c ∈ after.toList, isBlank c = true) ∧
    (parse (some (join entries)) = entries ↔
      entries ≠ [] ∧ ∀ entry ∈ entries, IsEntry entry) ∧
    (∀ entry ∈ parse value, IsEntry entry) ∧
    parse (some (join (parse value))) = parse value :=
  ⟨parse_append a b, parse_of_not_mem, parse_join_iff, fun _ => isEntry_of_mem_parse,
    parse_join_iff.mpr ⟨parse_ne_nil value, fun _ => isEntry_of_mem_parse⟩⟩

end Directories

/-! A list with gaps and with blanks around its entries, among them one that is not ASCII. -/
namespace GapsInList

open Directories (IsEntry join parse)
open Text (isBlank)

/-- What stands between two of the colons. -/
def piece : String := " /a b\u3000"

/-- The list as somebody writes it. -/
def written : String := ":" ++ piece ++ "::\t"

/-- The list as it is read. -/
def entries : List String := ["", "/a b", "", ""]

/-- The gaps are read as empty entries, and the piece without the blanks at its ends. The list that
was read is written and read again. -/
theorem gaps_kept :
    (':' ∉ piece.toList ∧ ∃ before after, piece = before ++ "/a b" ++ after ∧
      (∀ c ∈ before.toList, isBlank c = true) ∧ ∀ c ∈ after.toList, isBlank c = true) ∧
    parse (some written) = entries ∧
    (entries ≠ [] ∧ ∀ entry ∈ entries, IsEntry entry) ∧
    parse (some (join entries)) = entries := by
  have hcolon : ':' ∉ piece.toList := by decide
  have hpiece : parse (some piece) = ["/a b"] := by decide +kernel
  have hread : parse (some written) = entries := by decide +kernel
  obtain ⟨-, hsingle, hback, -, hagain⟩ :=
    Directories.list_read_back piece "" entries (some written)
  obtain ⟨before, entry, after, hentry, hends⟩ := hsingle hcolon
  obtain rfl : "/a b" = entry := by
    rw [hpiece] at hentry
    exact List.head_eq_of_cons_eq hentry
  rw [hread] at hagain
  exact ⟨⟨hcolon, before, after, hends⟩, hread, hback.mp hagain, hagain⟩

end GapsInList
end Stratum
