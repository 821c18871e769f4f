import Stratum.Call
import Stratum.Json.Reader
import Stratum.Text.Utf8
import Stratum.Yaml.Fault

/-!
# Failures

All that can go wrong in the library, by its cause, with the words for it. A file whose content
cannot be used is reported with the source that it came from; so is misuse of the library. The other
failures are those of the parts that the library is built on, and those that the host's own code
raises.
-/

namespace Stratum

/-- Why a file's content cannot be used. -/
inductive ContentFault
  | yaml (fault : Yaml.Fault)
  | json (problem : Json.Problem) (line column : Nat)
  | jsonNotText (fault : Text.Utf8.Fault)
  | notText (fault : Text.Utf8.Fault)
  | notMapping (kind : String)

/-- The words for a content fault in the file of a name, which is escaped already. -/
def ContentFault.message (name : String) : ContentFault → String
  | .yaml fault =>
    "Error parsing YAML: " ++ name ++ match fault.mark? with
      | some m => ": line " ++ toString (m.line + 1) ++ ", column " ++ toString (m.column + 1)
      | none => ""
  | .json problem line column =>
    "Error parsing JSON: " ++ name ++ ": line " ++ toString line ++ ", column " ++
      toString column ++ ": " ++ problem.message
  | .jsonNotText _ => "Error decoding JSON as UTF-8: " ++ name
  | .notText _ => "Config file is not valid UTF-8: " ++ name
  | .notMapping kind => "Top-level value must be a mapping, got " ++ kind ++ ": " ++ name

/-- A file whose content cannot be used: the name in the message, and the source it was read
from. -/
structure Malformed where
  fault : ContentFault
  name : String
  source : String

/-- The words for a file whose content cannot be used. -/
def Malformed.message (m : Malformed) : String := m.fault.message m.name

/-- A refusal of the operating system, by what it was given to say so. -/
inductive Refusal
  | bare
  | text (message : String)
  | numbered (number : Int) (message : String)
  | atPath (number : Int) (message path : String)
  deriving DecidableEq, Repr

/-- The text of a refusal. -/
def Refusal.message : Refusal → String
  | .bare => ""
  | .text s => s
  | .numbered n s => "[Errno " ++ toString n ++ "] " ++ s
  | .atPath n s path => "[Errno " ++ toString n ++ "] " ++ s ++ ": " ++ Text.quote path

/-- What a refusal says went wrong: the words alone if there are any, else its text. -/
def Refusal.reason (r : Refusal) : String :=
  match r with
  | .numbered _ s | .atPath _ s _ => if s.isEmpty then r.message else s
  | .bare | .text _ => r.message

/-- The kinds of errors that the host's code raises. One kind cannot be copied, and its text goes
on. -/
inductive HostKind
  | value
  | type
  | key
  | runtime
  | system
  | base
  | config
  | malformed (source : String)
  | unrepeatable
  deriving DecidableEq, Repr

/-- An error that the host's code raises. -/
structure HostError where
  kind : HostKind
  text : String
  deriving DecidableEq, Repr

/-- The words of a host's error. -/
def HostError.message (e : HostError) : String :=
  match e.kind with
  | .key => Text.quote e.text
  | .unrepeatable => e.text ++ "/x"
  | _ => e.text

/-- Misuse of the library: a shape that does not fit the values, an exclusion list that is none, or
an engine that nobody registered. -/
inductive Misuse
  | notMapping (shape kind : String)
  | unknownFields (shape : String) (names : List String)
  | badCall (shape : String) (fault : CallFault)
  | badValue (shape : String) (error : HostError)
  | exclusions
  | unknownEngine (quotedName : String) (available : List String)

/-- The key of the exclusion list in a mapping. -/
def exclusionKey : String := "exclusionConfigFileList"

/-- The words for a misuse. -/
def Misuse.message : Misuse → String
  | .notMapping shape kind =>
    "Cannot build " ++ shape ++ " from " ++ kind ++ ": expected a mapping"
  | .unknownFields shape names =>
    "Unknown field(s) for " ++ shape ++ ": " ++ ", ".intercalate names
  | .badCall shape fault => "Cannot build " ++ shape ++ " from config: " ++ fault.message
  | .badValue shape error => "Cannot build " ++ shape ++ " from config: " ++ error.message
  | .exclusions => exclusionKey ++ " must be a list of config names"
  | .unknownEngine quotedName available =>
    "Unknown config engine: " ++ quotedName ++ ". Available: " ++
      if available.isEmpty then "(none)" else ", ".intercalate available

/-- Whether a misuse was noticed through another failure. -/
def Misuse.hasCause : Misuse → Bool
  | .badCall .. | .badValue .. => true
  | _ => false

/-- All that can go wrong. -/
inductive Failure
  | malformed (m : Malformed)
  | misuse (m : Misuse)
  | scalar (fault : Yaml.ScalarFault)
  | number (fault : Numeral.Fault)
  | notText (fault : Text.Utf8.Fault)
  | refused (r : Refusal)
  | nulInPath
  | noDirectory
  | notMapping (kind : String)
  | notIterable (kind : String)
  | notHashable (kind : String)
  | noPackage (name : String)
  | insideModule (name moduleName : String)
  | notPackage (name : String)
  | relativePackage (name : String)
  | unnamedPackage
  | badCall (fault : CallFault)
  | lastDay
  | clocksDiffer
  | blocked
  | endless
  | host (e : HostError)

/-- The words for a failure. -/
def Failure.message : Failure → String
  | .malformed m => m.message
  | .misuse m => m.message
  | .scalar fault => fault.message
  | .number fault => fault.message
  | .notText fault => fault.message
  | .refused r => r.message
  | .nulInPath => "embedded null byte"
  | .noDirectory => "tuple index out of range"
  | .notMapping kind => "'" ++ kind ++ "' object has no attribute 'get'"
  | .notIterable kind => "'" ++ kind ++ "' object is not iterable"
  | .notHashable kind => "unhashable type: '" ++ kind ++ "'"
  | .noPackage name => "No module named " ++ Text.quote name
  | .insideModule name moduleName =>
    "No module named " ++ Text.quote name ++ "; " ++ Text.quote moduleName ++ " is not a package"
  | .notPackage name => Text.quote name ++ " is not a package"
  | .relativePackage name =>
    "the 'package' argument is required to perform a relative import for " ++ Text.quote name
  | .unnamedPackage => "Empty module name"
  | .badCall fault => fault.message
  | .lastDay => DateFault.beyondLast.message
  | .clocksDiffer => "can't compare offset-naive and offset-aware datetimes"
  | .blocked => "computation waits for itself"
  | .endless => "maximum recursion depth exceeded in comparison"
  | .host e => e.message

end Stratum
