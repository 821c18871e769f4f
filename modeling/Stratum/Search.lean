import Stratum.Act
import Stratum.Bundle
import Stratum.Document

/-!
# Searching for files

Where a file is looked for. The tiers are the externalized directories in order, then the bundle,
then the folder for configs inside the bundle, and the first one that has the file wins. A path hint
goes behind each directory; one that starts at the root is looked at alone. An empty directory means
the bundle. A tier without the file is passed over, and a file that cannot be opened is told to the
logger.
-/

namespace Stratum

/-- The directories and the bundle to look in. -/
structure Search where
  dirs : List String
  bundle : Option Bundle

namespace Search

/-- The topic of what a search logs. -/
def topic : String := "CONFIG"

/-- The folder of a bundle for configs that are shipped as defaults. -/
def defaultFolder : String := "config"

/-- Whether a path hint starts at the root. -/
def isAbsoluteHint (hint : String) : Bool := (Path.ofText hint).isAbsolute

/-- The directory of a number with a path hint behind it. -/
def directory (dir hint : String) : Path := (Path.ofText dir).join (.ofText hint)

/-- The directory that is looked in for the entry of a number, counted from the end if it is
negative. A hint that starts at the root makes the number irrelevant. -/
def candidate (dirs : List String) (hint : String) (index : Int) : Except Failure Path :=
  if isAbsoluteHint hint then .ok (.ofText hint)
  else
    let place := if index < 0 then index + dirs.length else index
    match if 0 ≤ place then dirs[place.toNat]? else none with
    | some dir => .ok (directory dir hint)
    | none => .error .noDirectory

/-- A text without the slashes at its ends. -/
def stripSlashes (s : String) : String :=
  let bare := s.toList.dropWhile (· == '/')
  String.ofList (bare.reverse.dropWhile (· == '/')).reverse

/-! ## Opening -/

/-- Opens a file of the file system. An absent one is nothing to speak of. -/
def openFile (t : FileTree) (p : Path) : Act (Option Stream) := do
  match t.open? p with
  | .ok bytes => return some (.ofFile p bytes)
  | .error .absent => return none
  | .error o =>
    match FileTree.refusal? p o with
    | none => throw .nulInPath
    | some r =>
      Act.tell .warning topic
        ("Unable to open " ++ Text.escape p.text ++ ": " ++ Text.escape r.reason)
      return none

/-- The numbers of the refusals that are an answer to whoever looks whether a file is there. -/
def overlooked : List Int := [2, 9, 20, 40]

/-- Whether an obstacle is an answer to whoever looks whether a file is there. -/
def isOverlooked (o : Obstacle) : Bool := o.error?.all fun (number, _) => overlooked.contains number

/-- Whether a file of the file system is there. An obstacle that is no answer is passed on. -/
def isFile (t : FileTree) (p : Path) : Act Bool := do
  match t.find p with
  | .ok e => return e.isFile
  | .error o =>
    match FileTree.refusal? p o with
    | none => return false
    | some r => if isOverlooked o then return false else throw (.refused r)

/-- Tells why a file of the bundle cannot be opened. -/
def skipBundled (relative : String) (r : Refusal) : Act (Option Stream) := do
  Act.tell .warning topic
    ("Unable to open bundled " ++ Text.escape relative ++ ": " ++ Text.escape r.reason)
  return none

/-- Opens a file of the bundle by its names. What is no file there is nothing to speak of. -/
def openBundled (t : FileTree) (bundle : Option Bundle) (relative : String) :
    Act (Option Stream) := do
  match bundle with
  | none => return none
  | some (.folder base) =>
    let p := Bundle.pathOf base relative
    if ← isFile t p then
      match t.open? p with
      | .ok bytes => return some (.ofFile p bytes)
      | .error o =>
        match FileTree.refusal? p o with
        | none => throw .nulInPath
        | some r => skipBundled relative r
    else return none
  | some (.resources files) =>
    match files.lookup ((Bundle.names relative).filter (· != "")) with
    | none => return none
    | some r =>
      match r.openRefusal with
      | none => return some (.ofResource r)
      | some refusal => skipBundled relative refusal

/-! ## Tiers -/

/-- Tells the logger something at the level of a search. -/
def report (message : String) : Act Unit := Act.tell .verbose topic message

/-- Looks for a file in an externalized directory. -/
def inDirectory (t : FileTree) (name : String) (dir : Path) : Act (Option Stream) := do
  let found ← openFile t (dir.join (.ofText name))
  let place := " externalized folder for " ++ Text.escape name ++ " in " ++ Text.escape dir.text
  if found.isSome then report ("Config loaded from" ++ place)
  else report ("Unable to load config from" ++ place)
  return found

/-- Looks for a file in the bundle in place of a directory. Without a hint that is left to the tiers
behind the directories. -/
def inPlaceOfDirectory (t : FileTree) (bundle : Option Bundle) (name hint : String) :
    Act (Option Stream) := do
  if hint.isEmpty then return none
  let relative := stripSlashes hint ++ "/" ++ name
  let found ← openBundled t bundle relative
  if found.isSome then report ("Config loaded from bundle for " ++ Text.escape relative)
  else report ("Unable to load config from bundle for " ++ Text.escape relative)
  return found

/-- The first stream that one of the searches finds. -/
def firstOf : List (Act (Option Stream)) → Act (Option Stream)
  | [] => return none
  | search :: rest => do
    match ← search with
    | some s => return some s
    | none => firstOf rest

/-- The searches for a file in the externalized directories. -/
def external (t : FileTree) (s : Search) (name hint : String) : List (Act (Option Stream)) :=
  if isAbsoluteHint hint then [inDirectory t name (.ofText hint)]
  else s.dirs.map fun dir =>
    if dir.isEmpty then inPlaceOfDirectory t s.bundle name hint
    else inDirectory t name (directory dir hint)

/-- Looks for a file in the bundle. -/
def inBundle (t : FileTree) (bundle : Option Bundle) (name : String) : Act (Option Stream) := do
  report ("Trying to load config from bundle directory for file " ++ Text.escape name)
  let found ← openBundled t bundle name
  if found.isSome then report ("Config loaded from bundle for " ++ Text.escape name)
  return found

/-- Looks for a file in the folder of the bundle for defaults. -/
def inDefaults (t : FileTree) (bundle : Option Bundle) (name : String) : Act (Option Stream) := do
  let found ← openBundled t bundle (defaultFolder ++ "/" ++ name)
  if found.isSome then report ("Config loaded from default folder for " ++ Text.escape name)
  return found

/-- What is said when no tier has a file. Behind the first two extensions another one is tried; the
last notice names what comes before the first point. -/
def missText (name : String) : String :=
  let next (extension : String) : String :=
    "Unable to load config " ++ Text.escape name ++
      ". Looking for the same file name with extension " ++ extension ++ "..."
  if Document.endsIn ".yml" name then next "yaml"
  else if Document.endsIn ".yaml" name then next "json"
  else
    "Unable to load config '" ++
      Text.escape (String.ofList (name.toList.takeWhile (· != '.'))) ++
      "' with extension yml, yaml and json from external config, application config and " ++
      "module config. Please ignore this message if you are sure that your application is not " ++
      "using this config file."

/-- The stream of a file from the first tier that has it. -/
def locate (t : FileTree) (s : Search) (name hint : String) : Act (Option Stream) := do
  let tiers := s.external t name hint ++ [inBundle t s.bundle name, inDefaults t s.bundle name]
  match ← firstOf tiers with
  | some found => return some found
  | none =>
    report (missText name)
    return none

end Search
end Stratum
