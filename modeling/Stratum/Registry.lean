import Stratum.Bundle
import Stratum.Call
import Stratum.Value.Basic

/-!
# The registry of engines

Engines by name, in the order in which the names were first registered. A factory makes an engine
from named arguments; each engine it makes is a new one.
-/

namespace Stratum

/-- What makes an engine: the file engine, one that a host brings along and that takes any arguments
or certain ones, or one that fails. -/
inductive Factory
  | file
  | anyArguments (tag : String)
  | values
  | failing (e : HostError)

/-- An engine as it was made. -/
inductive MadeEngine
  | file (dirs : List Value)
  | anyArguments (tag : String) (arguments : List (String × Value))
  | values (v : Value)

/-- Factories by name. -/
abbrev Registry := List (String × Factory)

namespace Registry

/-- The name of the engine that is made if none is asked for. -/
def defaultName : String := "file"

/-- The registry at the start. -/
def initial : Registry := [(defaultName, .file)]

/-- Registers a factory; under a name that is taken it replaces the one before. -/
def register (name : String) (f : Factory) : Registry → Registry
  | [] => [(name, f)]
  | (n, g) :: rest => if n = name then (n, f) :: rest else (n, g) :: register name f rest

/-- The registered names in order. -/
def available (r : Registry) : List String := r.map Prod.fst

/-- A parameter that can be left out. -/
private def optionalParameter (name : String) : Parameter := ⟨name, true, false⟩

/-- How the constructor of the file engine is called. -/
def fileSignature : Signature :=
  ⟨"FileConfig.__init__", some "self",
    ["config_dirs", "bundle", "overlay", "cache", "logger"].map optionalParameter⟩

/-- How the constructor of an engine with values is called. -/
def valuesSignature : Signature :=
  ⟨"StubConfig.__init__", some "self", [optionalParameter "values"]⟩

/-- The items that a value gives one after the other: a text its characters, a mapping its keys. -/
def itemsOf : Value → Except Failure (List Value)
  | .list items | .row items => .ok items
  | .atom (.text s) => .ok (s.toList.map fun c => .text c.toString)
  | .atom (.brokenText b) => .ok (b.points.map fun p => .atom (.ofCodePoints [p]))
  | .atom (.bytes bs) => .ok (bs.map fun b => .atom (.int b.toNat))
  | .map es => .ok (es.map fun (k, _) => .atom k)
  | .set ms => .ok (ms.map .atom)
  | v => .error (.notIterable v.fullKindName)

/-- The directories of a file engine: those given, or one empty entry. -/
def directories : Option Value → Except Failure (List Value)
  | none | some (.atom .null) => .ok [.text ""]
  | some v => itemsOf v

/-- The bundle of a file engine, if it is given by the name of a package. No package is at hand. -/
def bundle : Option Value → Except Failure (Option Bundle)
  | some (.atom (.text name)) => (Bundle.ofPackage ⟨[], []⟩ [] name).map some
  | _ => .ok none

/-- A call that fits the signature. -/
def checkCall (s : Signature) (arguments : List (String × Value)) : Except Failure Unit :=
  match s.fault? (arguments.map Prod.fst) with
  | some fault => .error (.badCall fault)
  | none => .ok ()

/-- The engine that a factory makes. -/
def make (f : Factory) (arguments : List (String × Value)) : Except Failure MadeEngine := do
  match f with
  | .file =>
    checkCall fileSignature arguments
    let dirs ← directories (arguments.lookup "config_dirs")
    let _ ← bundle (arguments.lookup "bundle")
    return .file dirs
  | .anyArguments tag => return .anyArguments tag arguments
  | .values =>
    checkCall valuesSignature arguments
    let v := (arguments.lookup "values").getD .null
    return .values (if v.isVoid then .map [] else v)
  | .failing e => .error (.host e)

/-- The name of the parameter for an engine's name, which may be given among the named arguments. -/
def nameParameter : String := "name"

/-- The function that makes engines, as it is called. -/
def createName : String := "create_config"

/-- An engine by its name, as a key. A name that is no text is unknown. -/
def find (r : Registry) (name : Atom) : Except Failure Factory :=
  let known := match name with
    | .text s => r.lookup s
    | _ => none
  match known, name.quoted with
  | some f, _ => .ok f
  | none, .ok quoted => .error (.misuse (.unknownEngine quoted r.available))
  | none, .error fault => .error (.number fault)

/-- The engine of a name, which is given by its place or among the arguments, but not twice. -/
def create (r : Registry) (name : Option String) (arguments : List (String × Value)) :
    Except Failure MadeEngine := do
  match name, arguments.lookup nameParameter with
  | some _, some _ => throw (.badCall (.repeated createName nameParameter))
  | some s, none => make (← r.find (.text s)) arguments
  | none, none => make (← r.find (.text defaultName)) arguments
  | none, some v =>
    match v.key? with
    | .error kind => throw (.notHashable kind)
    | .ok key =>
      make (← r.find key) (arguments.filter fun (argument, _) => argument != nameParameter)

end Registry
end Stratum
