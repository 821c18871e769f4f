import Stratum.Calendar.Moment
import Stratum.Number.Numeral
import Stratum.Number.Shortest

/-!
# Atoms

The values without parts that can be changed: what a document's scalars are and what the keys of a
mapping may be. Two atoms are the same key if they have the same form. The form of a number is the
rational number it is, so a whole number, a double and a truth value can be one key; the form of a
moment with an offset is its instant.
-/

namespace Stratum

/-- A text with a surrogate in it, which is therefore no ordinary text. -/
structure BrokenText where
  points : List Text.CodePoint
  broken : Text.CodePoint.chars? points = none
  deriving DecidableEq

/-- A broken text as it is written. -/
def BrokenText.written (b : BrokenText) : String := String.ofList (Text.CodePoint.written b.points)

/-- A scalar, or a row of scalars. -/
inductive Atom
  | null
  | bool (b : Bool)
  | int (n : Int)
  | real (x : Binary64)
  | text (s : String)
  | brokenText (b : BrokenText)
  | bytes (bs : List UInt8)
  | date (d : Date)
  | moment (t : Moment)
  | row (items : List Atom)

namespace Atom

/-- The text of code points. -/
def ofCodePoints (ps : List Text.CodePoint) : Atom :=
  match h : Text.CodePoint.chars? ps with
  | some cs => text (String.ofList cs)
  | none => brokenText ⟨ps, h⟩

/-- A piece of the form of an atom. -/
inductive Mark
  | null
  | number (q : Rat)
  | infinite (negative : Bool)
  | notANumber (mark : Nat)
  | text (s : String)
  | brokenText (b : BrokenText)
  | bytes (bs : List UInt8)
  | date (d : Date)
  | moment (placed : Bool) (instant : Int)
  | opening
  | closing
  deriving DecidableEq

/-- What makes two atoms the same key. -/
abbrev Form := List Mark

/-- The form of a double: the rational it is, unless it is none. -/
def realMark (x : Binary64) : Mark :=
  match x.reading with
  | .notANumber mark => .notANumber mark
  | .infinite negative => .infinite negative
  | .finite negative m e =>
    .number (if 0 ≤ e then Binary64.signed negative (m <<< e.toNat)
      else mkRat (Binary64.signed negative m) (1 <<< (-e).toNat))

mutual

/-- The form of an atom. -/
def form : Atom → Form
  | null => [.null]
  | bool b => [.number (if b then 1 else 0)]
  | int n => [.number n]
  | real x => [realMark x]
  | text s => [.text s]
  | brokenText b => [.brokenText b]
  | bytes bs => [.bytes bs]
  | date d => [.date d]
  | moment t => [.moment t.offset.isSome t.instant]
  | row items => .opening :: formList items

/-- The forms of the atoms of a row, one after the other. -/
def formList : List Atom → Form
  | [] => [.closing]
  | a :: rest => form a ++ formList rest

end

/-- Whether two atoms are one key. Texts need no form to be compared. -/
def sameKey : Atom → Atom → Bool
  | text s, text t => s == t
  | a, b => a.form == b.form

@[simp] theorem sameKey_iff {a b : Atom} : a.sameKey b = true ↔ a.form = b.form := by
  unfold sameKey
  split
  · simp [form]
  · simp

/-! ## Text -/

/-- A number in a list of arguments. -/
private def argument (n : Nat) : String := toString n

/-- A date by the arguments that build it. -/
def dateArguments (d : Date) : String :=
  ", ".intercalate ([d.year, d.month, d.day].map argument)

/-- An offset by the expression that builds it. -/
def offsetExpression (o : Offset) : String :=
  if o.micros = 0 then "datetime.timezone.utc" else "datetime.timezone(" ++ spanText o.micros ++ ")"

/-- A moment by the arguments that build it; seconds and microseconds only if they matter. -/
def momentArguments (t : Moment) : String :=
  let s := t.micros / Micros.second
  let us := t.micros % Micros.second
  let clock := [s / 3600, s / 60 % 60] ++
    (if us ≠ 0 then [s % 60, us] else if s % 60 ≠ 0 then [s % 60] else [])
  let offset := (t.offset.map fun o => ", tzinfo=" ++ offsetExpression o).getD ""
  dateArguments t.date ++ ", " ++ ", ".intercalate (clock.map argument) ++ offset

mutual

/-- An atom as it stands inside a row: texts quoted, dates by what builds them. -/
def quoted : Atom → Except Numeral.Fault String
  | null => .ok "None"
  | bool b => .ok (if b then "True" else "False")
  | int n => Numeral.write n
  | real x => .ok x.text
  | text s => .ok (Text.quote s)
  | brokenText b => .ok (Text.quotePoints b.points)
  | bytes bs => .ok (Text.quoteBytes bs)
  | date d => .ok ("datetime.date(" ++ dateArguments d ++ ")")
  | moment t => .ok ("datetime.datetime(" ++ momentArguments t ++ ")")
  | row [a] => (quoted a).map fun s => "(" ++ s ++ ",)"
  | row items => (quotedList items).map fun ss => "(" ++ ", ".intercalate ss ++ ")"

/-- The atoms of a row, each as it stands inside. -/
def quotedList : List Atom → Except Numeral.Fault (List String)
  | [] => .ok []
  | a :: rest => do
    let s ← quoted a
    let ss ← quotedList rest
    .ok (s :: ss)

end

/-- An atom in a message. Only a number that is too long has no text. -/
def display : Atom → Except Numeral.Fault (List Text.CodePoint)
  | text s => .ok (Text.codePoints s)
  | brokenText b => .ok b.points
  | date d => .ok (Text.codePoints d.text)
  | moment t => .ok (Text.codePoints (t.text " "))
  | a => a.quoted.map Text.codePoints

/-- The name of an atom's kind. -/
def kindName : Atom → String
  | null => "NoneType"
  | bool _ => "bool"
  | int _ => "int"
  | real _ => "float"
  | text _ => "str"
  | brokenText _ => "str"
  | bytes _ => "bytes"
  | date _ => "date"
  | moment _ => "datetime"
  | row _ => "tuple"

/-- The name of the kind with the name of the library that it comes from, if there is one. -/
def fullKindName : Atom → String
  | date _ => "datetime.date"
  | moment _ => "datetime.datetime"
  | a => a.kindName

end Atom
end Stratum
