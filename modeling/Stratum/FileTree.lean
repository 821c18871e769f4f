import Stratum.Failure
import Stratum.Path

/-!
# File trees

The files that programs see: folders, files and devices by the names that lead to them from the
root, and the folder that relative paths start in. A path is followed name by name, and the first
name that stands in the way decides why it leads nowhere. A folder may be barred, so that no name in
it can be followed, and what stands at the end of a path may refuse to be opened.
-/

namespace Stratum

/-- A refusal of the operating system to follow or to open what is there: its number and its words.
The number 2 says that nothing is there. -/
structure SystemError where
  number : Int
  words : String
  ne_absent : number ≠ 2
  deriving DecidableEq, Repr

/-- A folder, a file with its bytes, or a device, which gives bytes and is no file. The system may
refuse to open any of them, and to enter a folder. -/
inductive Entry
  | folder (entering : Option SystemError := none) (opening : Option SystemError := none)
  | file (bytes : List UInt8) (opening : Option SystemError := none)
  | device (bytes : List UInt8) (opening : Option SystemError := none)
  deriving DecidableEq, Repr

/-- Folders and files by the names that lead to them, and where relative paths start. -/
structure FileTree where
  entries : List (List String × Entry)
  working : List String
  deriving Repr

/-- Why a path leads nowhere. -/
inductive Obstacle
  | absent
  | notFolder
  | folder
  | tooLong
  | nul
  | refused (e : SystemError)
  deriving DecidableEq, Repr

/-- The number and the words that the operating system has for an obstacle; none if it is no refusal
of the system. -/
def Obstacle.error? : Obstacle → Option (Int × String)
  | .absent => some (2, "No such file or directory")
  | .notFolder => some (20, "Not a directory")
  | .folder => some (21, "Is a directory")
  | .tooLong => some (36, "File name too long")
  | .nul => none
  | .refused e => some (e.number, e.words)

namespace Entry

/-- Whether an entry is a file. -/
def isFile : Entry → Bool
  | .file .. => true
  | .folder .. | .device .. => false

/-- Whether an entry is a folder. -/
def isFolder : Entry → Bool
  | .folder .. => true
  | .file .. | .device .. => false

/-- What stands in the way of a name behind an entry, if something does. -/
def bar? : Entry → Option Obstacle
  | .folder entering _ => entering.map .refused
  | .file .. | .device .. => some .notFolder

/-- The bytes that an entry gives, or what stands in the way of opening it. -/
def open? : Entry → Except Obstacle (List UInt8)
  | .folder _ none => .error .folder
  | .file bytes none | .device bytes none => .ok bytes
  | .folder _ (some e) | .file _ (some e) | .device _ (some e) => .error (.refused e)

end Entry

namespace FileTree

/-- The most bytes that a name may have. -/
def nameLimit : Nat := 255

/-- The number of bytes that no path may reach. -/
def pathLimit : Nat := 4096

/-- The number of bytes of a text. -/
def byteLength (s : String) : Nat := (Text.Utf8.encode s.toList).length

/-- What stands at the end of names. The root and the folder where relative paths start are
there. -/
def entry? (t : FileTree) (names : List String) : Option Entry :=
  if names.isEmpty || names = t.working then some .folder else t.entries.lookup names

/-- What stands in the way of a name behind a place, if something does. -/
def bar? (t : FileTree) (place : List String) : Option Obstacle :=
  match t.entry? place with
  | none => some .absent
  | some e => e.bar?

/-- The place that names lead to from a place, or the first obstacle. -/
def walk (t : FileTree) (place : List String) : List String → Except Obstacle (List String)
  | [] => .ok place
  | name :: rest =>
    match t.bar? place with
    | some o => .error o
    | none =>
      if name = ".." then t.walk place.dropLast rest
      else if nameLimit < byteLength name then .error .tooLong
      else if (t.entry? (place ++ [name])).isNone then .error .absent
      else t.walk (place ++ [name]) rest

/-- What stands at a path, or what stands in the way. -/
def find (t : FileTree) (p : Path) : Except Obstacle Entry :=
  let text := p.text
  if text.toList.contains '\x00' then .error .nul
  else if pathLimit ≤ byteLength text then .error .tooLong
  else
    match t.walk (if p.isAbsolute then [] else t.working) p.parts with
    | .error o => .error o
    | .ok place =>
      match t.entry? place with
      | some e => .ok e
      | none => .error .absent

/-- The bytes of what stands at a path, or what stands in the way of opening it. -/
def open? (t : FileTree) (p : Path) : Except Obstacle (List UInt8) := (t.find p).bind Entry.open?

/-- How the operating system words an obstacle; none if it is no refusal of the system. -/
def refusal? (p : Path) (o : Obstacle) : Option Refusal :=
  o.error?.map fun (number, words) => .atPath number words p.text

/-! ## Changes -/

/-- The entries with one put at the end of names. -/
def putEntry (names : List String) (e : Entry) :
    List (List String × Entry) → List (List String × Entry)
  | [] => [(names, e)]
  | (ns, f) :: rest => if ns = names then (ns, e) :: rest else (ns, f) :: putEntry names e rest

/-- The names that lead to the folders above the end of names. -/
def above (names : List String) : List (List String) :=
  (List.range names.length).map (names.take ·)

/-- The tree with an entry put at the end of names, and the folders above it. -/
def put (t : FileTree) (names : List String) (e : Entry) : FileTree :=
  let folders := ((above names).filter fun ns => (t.entry? ns).isNone).map (·, Entry.folder)
  { t with entries := putEntry names e (t.entries ++ folders) }

/-- The tree without what stands at the end of names. -/
def remove (t : FileTree) (names : List String) : FileTree :=
  { t with entries := t.entries.filter fun (ns, _) => !names.isPrefixOf ns }

end FileTree
end Stratum
