import Stratum.FileTree

/-!
# Bundles

The configs that an application ships with: a folder, or a tree of resources that lives outside the
file system. A resource is reached name by name, and may refuse to be opened or to be read.
-/

namespace Stratum

/-- A file outside the file system, with the name that its stream has, if it has one, and the
refusals that meet whoever opens or reads it. -/
structure Resource where
  bytes : List UInt8
  streamName : Option String
  openRefusal : Option Refusal
  readRefusal : Option Refusal

/-- Where the configs of an application are. -/
inductive Bundle
  | folder (path : Path)
  | resources (files : List (List String × Resource))

/-- An open file: its name if it has one, and what reading it gives. -/
structure Stream where
  name : Option String
  content : Except Refusal (List UInt8)

namespace Stream

/-- The stream of a file at a path. -/
def ofFile (p : Path) (bytes : List UInt8) : Stream := ⟨some p.text, .ok bytes⟩

/-- The stream of a resource. -/
def ofResource (r : Resource) : Stream :=
  ⟨r.streamName, match r.readRefusal with
    | some refusal => .error refusal
    | none => .ok r.bytes⟩

end Stream

namespace Bundle

/-- The names that lead to a relative file: the texts between its slashes. -/
def names (relative : String) : List String :=
  (relative.toList.splitOn '/').map String.ofList

/-- The path of a relative file in a folder, reached name by name. -/
def pathOf (base : Path) (relative : String) : Path :=
  (names relative).foldl (fun p name => p.join (.ofText name)) base

/-- What a name stands for in a folder of packages: a package, which is a folder, or a module, which
is a single file and holds nothing more. -/
inductive Importable
  | package
  | module
  deriving DecidableEq, Repr

/-- The ending of the name of a module's file. -/
def moduleEnding : String := ".py"

/-- The file that marks a folder as a package even if there is a module of the same name. -/
def packageFile : String := "__init__" ++ moduleEnding

/-- What a name stands for in a folder, if it stands for something. -/
def importable? (t : FileTree) (place : List String) (name : String) : Option Importable :=
  let isFile (names : List String) : Bool := (t.entry? names).any Entry.isFile
  if isFile (place ++ [name, packageFile]) then some .package
  else if isFile (place ++ [name ++ moduleEnding]) then some .module
  else if (t.entry? (place ++ [name])).any Entry.isFolder then some .package
  else none

/-- The package of names that are left, inside the package of the names `seen` among those in a
folder. The first name that stands for nothing is not found, and nothing is inside a module. -/
def enter (t : FileTree) (place : List String) (seen : List String) :
    List String → Except Failure Bundle
  | [] => .ok (.folder ⟨1, place ++ seen⟩)
  | part :: rest =>
    let names := seen ++ [part]
    let name := ".".intercalate names
    match importable? t (place ++ seen) part, rest with
    | none, _ => .error (.noPackage name)
    | some .package, _ => enter t place names rest
    | some .module, [] => .error (.notPackage name)
    | some .module, next :: _ => .error (.insideModule (name ++ "." ++ next) name)

/-- The package of a name among those in a folder. A name that starts with a point is relative, and
there is nothing that it could be relative to. -/
def ofPackage (t : FileTree) (place : List String) (name : String) : Except Failure Bundle :=
  if name.isEmpty then .error .unnamedPackage
  else if name.toList.head? = some '.' then .error (.relativePackage name)
  else enter t place [] ((name.toList.splitOn '.').map String.ofList)

end Bundle
end Stratum
