import Stratum.Text.CodePoint
import Stratum.Text.PrintableTable

/-!
# Printable text

Text that goes into a diagnostic is escaped first, so that no file name or value can forge a line of
its own. A printable character stands for itself; any other one is spelled by a short escape (`\n`,
`\r`, `\t`) or by its code point in two, four or eight hexadecimal digits.
-/

namespace Stratum.Text

/-- A character that may stand in a diagnostic as it is. -/
def isPrintable (c : Char) : Bool :=
  if c.toNat < 0x7f then 0x20 ≤ c.toNat else insideRun c.toNat printableSwitches

/-- The last `width` hexadecimal digits of a number, in lower case. -/
def hexDigits : (width : Nat) → Nat → List Char
  | 0, _ => []
  | w + 1, n => hexDigits w (n / 16) ++ [Nat.digitChar (n % 16)]

/-- A code point spelled by its hexadecimal digits, as many as its size asks for. -/
def codeEscape (n : Nat) : List Char :=
  if n < 0x100 then '\\' :: 'x' :: hexDigits 2 n
  else if n < 0x10000 then '\\' :: 'u' :: hexDigits 4 n
  else '\\' :: 'U' :: hexDigits 8 n

/-- The spelling of one character in a diagnostic. -/
def escapeChar (c : Char) : List Char :=
  if isPrintable c then [c]
  else if c = '\n' then ['\\', 'n']
  else if c = '\r' then ['\\', 'r']
  else if c = '\t' then ['\\', 't']
  else codeEscape c.toNat

/-- Printable text is left as it is; in any other text each character is spelled on its own. -/
def escape (s : String) : String :=
  if s.toList.all isPrintable then s else String.ofList (s.toList.flatMap escapeChar)

/-- The spelling of code points in a diagnostic; a surrogate is not printable. -/
def escapePoints (ps : List CodePoint) : List Char :=
  ps.flatMap fun
    | .char c => escapeChar c
    | .surrogate s => codeEscape s.code

/-- Printable characters are their own spelling. -/
theorem escapeChar_of_isPrintable {c : Char} (h : isPrintable c = true) : escapeChar c = [c] := by
  simp [escapeChar, h]

/-- Character by character, printable text spells itself. -/
theorem flatMap_escapeChar_of_all {cs : List Char} (h : cs.all isPrintable = true) :
    cs.flatMap escapeChar = cs := by
  induction cs with
  | nil => rfl
  | cons c cs ih =>
    simp only [List.all_cons, Bool.and_eq_true] at h
    simp [List.flatMap_cons, escapeChar_of_isPrintable h.1, ih h.2]

/-- The two ways through `escape` agree: it always spells character by character. -/
theorem toList_escape (s : String) : (escape s).toList = s.toList.flatMap escapeChar := by
  unfold escape
  split
  · rename_i h
    exact (flatMap_escapeChar_of_all h).symm
  · simp

/-- Ordinary text is spelled the same way if it is given by its code points. -/
theorem escapePoints_codePoints (s : String) : escapePoints (codePoints s) = (escape s).toList := by
  rw [toList_escape]
  simp [escapePoints, codePoints, List.flatMap_map]

end Stratum.Text
