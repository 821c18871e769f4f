import Stratum.Value.Entries

/-!
# Values

A value as it is read off: a tree of lists, rows, mappings, sets and objects over atoms. A container
that stands inside itself is written as the number of containers up to it.
-/

namespace Stratum

/-- A value as a tree. -/
inductive Value
  | atom (a : Atom)
  | list (items : List Value)
  | row (items : List Value)
  | map (entries : List (Atom × Value))
  | set (members : List Atom)
  | object (kind : String) (fields : List (String × Value))
  | enclosing (up : Nat)

namespace Value

instance : Inhabited Value := ⟨.atom .null⟩

/-- The absent value. -/
abbrev null : Value := .atom .null

/-- A text as a value. -/
abbrev text (s : String) : Value := .atom (.text s)

/-- The entries, if the value is a mapping. -/
def entries? : Value → Option (Entries Value)
  | map es => some es
  | _ => none

/-- The name of the value's kind. -/
def kindName : Value → String
  | atom a => a.kindName
  | list _ => "list"
  | row _ => "tuple"
  | map _ => "dict"
  | set _ => "set"
  | object kind _ => kind
  | enclosing _ => "list"

/-- The full name of the value's kind. -/
def fullKindName : Value → String
  | atom a => a.fullKindName
  | v => v.kindName

mutual

/-- The value as a key. What can be changed cannot be one, and neither can a row that holds such a
thing; the name of its kind is given then. -/
def key? : Value → Except String Atom
  | atom a => .ok a
  | row items => (keys? items).map .row
  | v => .error v.fullKindName

/-- The items of a row as keys. -/
def keys? : List Value → Except String (List Atom)
  | [] => .ok []
  | v :: rest => do
    let a ← key? v
    let as ← keys? rest
    .ok (a :: as)

end

/-- Values that count as nothing: null, false, zero and everything empty. -/
def isVoid : Value → Bool
  | atom .null => true
  | atom (.bool b) => !b
  | atom (.int n) => n == 0
  | atom (.real x) => x.bits <<< 1 == 0
  | atom (.text s) => s.isEmpty
  | atom (.bytes bs) => bs.isEmpty
  | list items => items.isEmpty
  | row items => items.isEmpty
  | map es => es.isEmpty
  | set ms => ms.isEmpty
  | _ => false

end Value
end Stratum
