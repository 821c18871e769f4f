import Mathlib.Algebra.Group.Nat.Defs
import Mathlib.Tactic.SplitIfs
import Stratum.Text.Digit
import Stratum.Text.Printable

/-!
# Text that can be printed

Escaped text is printable, whatever it was before, and so are the digits of a number and what is put
together from printable pieces. Escaping goes character by character, and leaves alone what is
printable and nothing else (`Text.escape_by_characters`).
-/

namespace Stratum

namespace Text

/-- A text of printable characters only. -/
def Printable (s : String) : Prop := ∀ c ∈ s.toList, isPrintable c = true

/-- A text is printable if its pieces are. -/
@[simp] theorem printable_append {s t : String} :
    Printable (s ++ t) ↔ Printable s ∧ Printable t := by
  unfold Printable
  rw [String.toList_append]
  exact List.forall_mem_append

/-- A text of given characters is printable if they are. -/
theorem printable_ofList {cs : List Char} :
    Printable (String.ofList cs) ↔ ∀ c ∈ cs, isPrintable c = true := by
  rw [Printable, String.toList_ofList]

/-- A text that is written out is printable if each of its characters is found to be. -/
theorem printable_of_all {cs : List Char} (h : cs.all isPrintable = true) :
    Printable (String.ofList cs) := printable_ofList.mpr (List.all_eq_true.mp h)

/-! ## Digits -/

/-- A decimal digit is printable. -/
theorem isPrintable_of_isDigit {c : Char} (h : c.isDigit = true) : isPrintable c = true := by
  have hbounds : 0x30 ≤ c.toNat ∧ c.toNat ≤ 0x39 := by
    simpa [Char.isDigit, UInt32.le_iff_toNat_le] using h
  unfold isPrintable
  rw [if_pos (by omega)]
  exact decide_eq_true (by omega)

/-- A number is printable. -/
@[simp] theorem printable_toString (n : Nat) : Printable (toString n) := by
  intro c hc
  rw [Nat.toString_eq_repr, Nat.toList_repr] at hc
  exact isPrintable_of_isDigit (Nat.isDigit_of_mem_toDigits (by decide) (by decide) hc)

/-- Hexadecimal digits are printable. -/
theorem isPrintable_of_mem_hexDigits (width n : Nat) :
    ∀ c ∈ hexDigits width n, isPrintable c = true := by
  have hdigit : ∀ d < 16, isPrintable (Nat.digitChar d) = true := by decide
  induction width generalizing n with
  | zero => exact fun c hc => absurd hc List.not_mem_nil
  | succ width ih =>
    refine List.forall_mem_append.mpr ⟨ih (n / 16), List.forall_mem_singleton.mpr ?_⟩
    exact hdigit (n % 16) (Nat.mod_lt n (by decide))

/-! ## Escapes -/

/-- A code point spelled by its digits is printable. -/
theorem isPrintable_of_mem_codeEscape (n : Nat) : ∀ c ∈ codeEscape n, isPrintable c = true := by
  have hspelled : ∀ mark, isPrintable mark = true → ∀ width,
      ∀ c ∈ '\\' :: mark :: hexDigits width n, isPrintable c = true := fun mark hmark width =>
    List.forall_mem_cons.mpr ⟨by decide,
      List.forall_mem_cons.mpr ⟨hmark, isPrintable_of_mem_hexDigits width n⟩⟩
  unfold codeEscape
  split_ifs
  · exact hspelled 'x' (by decide) 2
  · exact hspelled 'u' (by decide) 4
  · exact hspelled 'U' (by decide) 8

/-- Whatever a character is, its spelling is printable. -/
theorem isPrintable_of_mem_escapeChar (c : Char) : ∀ d ∈ escapeChar c, isPrintable d = true := by
  have hspelled : ∀ mark, isPrintable mark = true → ∀ d ∈ ['\\', mark], isPrintable d = true :=
    fun mark hmark =>
      List.forall_mem_cons.mpr ⟨by decide, List.forall_mem_singleton.mpr hmark⟩
  unfold escapeChar
  split_ifs with hprintable
  · exact List.forall_mem_singleton.mpr hprintable
  · exact hspelled 'n' (by decide)
  · exact hspelled 'r' (by decide)
  · exact hspelled 't' (by decide)
  · exact isPrintable_of_mem_codeEscape c.toNat

/-- Escaped text is printable. -/
@[simp] theorem printable_escape (s : String) : Printable (escape s) := by
  intro c hc
  rw [toList_escape] at hc
  obtain ⟨d, -, hc⟩ := List.mem_flatMap.mp hc
  exact isPrintable_of_mem_escapeChar d c hc

/-- So are escaped code points, surrogates among them. -/
@[simp] theorem printable_escapePoints (ps : List CodePoint) :
    Printable (String.ofList (escapePoints ps)) := by
  refine printable_ofList.mpr fun c hc => ?_
  obtain ⟨p, -, hc⟩ := List.mem_flatMap.mp hc
  cases p with
  | char d => exact isPrintable_of_mem_escapeChar d c hc
  | surrogate s => exact isPrintable_of_mem_codeEscape s.code c hc

/-! ## Escapes read back -/

/-- The code point that an escape spells, by a letter of its own or by two, four or eight digits. -/
def spelledCode? : List Char → Option Nat
  | ['\\', 'n'] => some 0x0a
  | ['\\', 'r'] => some 0x0d
  | ['\\', 't'] => some 0x09
  | '\\' :: 'x' :: digits => if digits.length = 2 then hexNumber? digits else none
  | '\\' :: 'u' :: digits => if digits.length = 4 then hexNumber? digits else none
  | '\\' :: 'U' :: digits => if digits.length = 8 then hexNumber? digits else none
  | _ => none

/-- There are as many digits as were asked for. -/
theorem length_hexDigits (width n : Nat) : (hexDigits width n).length = width := by
  induction width generalizing n with
  | zero => rfl
  | succ width ih => rw [hexDigits, List.length_append, ih, List.length_singleton]

/-- One more digit multiplies the number by sixteen and adds its value. -/
theorem hexNumber?_concat (cs : List Char) (c : Char) :
    hexNumber? (cs ++ [c]) = (hexNumber? cs).bind fun n => (hexValue? c).map (n * 16 + ·) := by
  rw [hexNumber?, List.foldl_append]
  rfl

/-- As many of a number's last digits as are asked for spell its remainder. -/
theorem hexNumber?_hexDigits (width n : Nat) :
    hexNumber? (hexDigits width n) = some (n % 16 ^ width) := by
  have hdigit : ∀ d < 16, hexValue? (Nat.digitChar d) = some d := by decide
  induction width generalizing n with
  | zero =>
    rw [Nat.pow_zero, Nat.mod_one]
    rfl
  | succ width ih =>
    have hlast : hexValue? (Nat.digitChar (n % 16)) = some (n % 16) :=
      hdigit (n % 16) (Nat.mod_lt n (by decide))
    -- The digits before the last one are those of the sixteenth part.
    have hsplit : n % 16 ^ (width + 1) = n / 16 % 16 ^ width * 16 + n % 16 := by
      rw [Nat.pow_succ', Nat.mod_mul, Nat.add_comm, Nat.mul_comm]
    rw [hexDigits, hexNumber?_concat, ih, hlast, hsplit]
    rfl

/-- A code point is read back from its digits. -/
theorem spelledCode?_codeEscape {n : Nat} (h : n < 0x110000) :
    spelledCode? (codeEscape n) = some n := by
  have hdigits : ∀ width, n < 16 ^ width → hexNumber? (hexDigits width n) = some n :=
    fun width hn => by rw [hexNumber?_hexDigits, Nat.mod_eq_of_lt hn]
  unfold codeEscape
  split_ifs with h2 h4
  · rw [spelledCode?, if_pos (length_hexDigits 2 n), hdigits 2 h2]
  · rw [spelledCode?, if_pos (length_hexDigits 4 n), hdigits 4 h4]
  · rw [spelledCode?, if_pos (length_hexDigits 8 n), hdigits 8 (by omega)]

/-- A character that is not printable is read back from its spelling. -/
theorem spelledCode?_escapeChar {c : Char} (h : isPrintable c = false) :
    spelledCode? (escapeChar c) = some c.toNat := by
  have hcode : c.toNat < 0x110000 := by
    have hvalid : c.toNat.isValidChar := c.valid
    unfold Nat.isValidChar at hvalid
    omega
  unfold escapeChar
  rw [if_neg (Bool.eq_false_iff.mp h)]
  split_ifs with hline hreturn htab
  · rw [hline]
    rfl
  · rw [hreturn]
    rfl
  · rw [htab]
    rfl
  · exact spelledCode?_codeEscape hcode

/-! ## Escaped text -/

/-- A text is left as it is exactly if it is printable. -/
theorem escape_eq_self_iff {s : String} : escape s = s ↔ Printable s := by
  constructor
  · intro h
    rw [← h]
    exact printable_escape s
  · intro h
    rw [escape, if_pos (List.all_eq_true.mpr h)]

/-- Texts one behind the other are escaped each on its own. -/
theorem escape_append (s t : String) : escape (s ++ t) = escape s ++ escape t := by
  rw [← String.toList_inj, String.toList_append, toList_escape, toList_escape, toList_escape,
    String.toList_append, List.flatMap_append]

/-- Escaping spells each character on its own, also if the text is given by its code points: a
printable one by itself, any other one by an escape from which its code point is read back. It makes
any text printable, leaves a text alone exactly if it is printable, so that it does nothing the
second time, and goes through a text piece by piece. -/
theorem escape_by_characters (s t : String) :
    escape s = String.ofList (s.toList.flatMap escapeChar) ∧
    String.ofList (escapePoints (codePoints s)) = escape s ∧
    (∀ c ∈ s.toList, (isPrintable c = true → escapeChar c = [c]) ∧
      (isPrintable c = false → spelledCode? (escapeChar c) = some c.toNat)) ∧
    Printable (escape s) ∧
    (escape s = s ↔ Printable s) ∧
    escape (escape s) = escape s ∧
    escape (s ++ t) = escape s ++ escape t := by
  refine ⟨?_, ?_, fun c _ => ⟨escapeChar_of_isPrintable, spelledCode?_escapeChar⟩,
    printable_escape s, escape_eq_self_iff, escape_eq_self_iff.mpr (printable_escape s),
    escape_append s t⟩
  · rw [← toList_escape, String.ofList_toList]
  · rw [escapePoints_codePoints, String.ofList_toList]

end Text

/-! A letter and a backslash, and marks that cannot be seen: a line break, and one each that is
spelled by two, four and eight digits. -/
namespace HiddenMarks

open Text (escape escapeChar isPrintable spelledCode?)

/-- The mark that is spelled by eight digits. -/
def tag : Char := Char.ofNat 0xe0041

/-- The text with the marks. -/
def marked : String := String.ofList ['é', '\\', '\n', '\x1b', '\u2028', tag]

/-- Each of the marks is spelled, and once only; the letter and the backslash stay. -/
theorem marks_spelled :
    escape marked = "é\\\\n\\x1b\\u2028\\U000e0041" ∧
    (tag ∈ marked.toList ∧ isPrintable tag = false ∧
      spelledCode? (escapeChar tag) = some 0xe0041) ∧
    escape marked ≠ marked ∧ escape (escape marked) = escape marked ∧
    escape (marked ++ "\t") = escape marked ++ "\\t" := by
  obtain ⟨-, -, hspelled, -, hself, hagain, happend⟩ := Text.escape_by_characters marked "\t"
  have htag : tag ∈ marked.toList := by decide
  have hhidden : isPrintable tag = false := by decide +kernel
  have hcode := (hspelled tag htag).2 hhidden
  have hline : ¬ Text.Printable marked := fun h => Bool.noConfusion (h '\n' (by decide))
  have htab : escape "\t" = "\\t" := by decide +kernel
  exact ⟨by decide +kernel, ⟨htag, hhidden, hcode⟩, mt hself.mp hline, hagain,
    happend.trans (congrArg (escape marked ++ ·) htab)⟩

end HiddenMarks
end Stratum
