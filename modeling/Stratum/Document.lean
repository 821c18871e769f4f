import Stratum.Act
import Stratum.Text.Blank
import Stratum.Yaml.Load

/-!
# Documents

The value of a file's content, in the format that the end of the file's name tells. An empty
document is null, and where a mapping is wanted it is an empty one.
-/

namespace Stratum.Document

/-- The endings of names, in the order in which files are looked for. -/
def extensions : List String := [".yml", ".yaml", ".json"]

/-- A file whose content cannot be used. Until it is known where the content came from, the file's
name stands for the source. -/
def malformed {α : Type} (name : String) (fault : ContentFault) : Act α :=
  throw (.malformed ⟨fault, Text.escape name, Text.escape name⟩)

/-- The value of a JSON document. -/
def ofJson (bytes : List UInt8) (name : String) : Act Slot := do
  match Text.Utf8.decode bytes with
  | .error fault => malformed name (.jsonNotText fault)
  | .ok text =>
    if text.all Text.isBlank then return .atom .null
    match Json.read text with
    | .ok v => Act.make (·.store v)
    | .error (.numeral fault) => throw (.number fault)
    | .error (.malformed problem offset) =>
      let (line, column) := Json.place text offset
      malformed name (.json problem line column)

/-- The value of a YAML document. A scalar that its tag does not fit is no fault of the format. -/
def ofYaml (bytes : List UInt8) (name : String) : Act Slot := do
  match Yaml.load bytes (← get).heap with
  | .ok (s, heap) =>
    modify fun st => { st with heap }
    return s
  | .error (.scalar fault) => throw (.scalar fault)
  | .error fault => malformed name (.yaml fault)

/-- Whether a name ends in a text. -/
def endsIn (ending name : String) : Bool := ending.toList.isSuffixOf name.toList

/-- The value of a document. -/
def parse (bytes : List UInt8) (name : String) : Act Slot :=
  if endsIn ".json" name then ofJson bytes name else ofYaml bytes name

/-- The mapping of a document. -/
def parseMapping (bytes : List UInt8) (name : String) : Act Slot := do
  let s ← parse bytes name
  match s with
  | .atom .null => Act.make fun h => let (addr, h) := h.alloc (.map []); (.ref addr, h)
  | _ =>
    if (← Act.look (·.entries? s)).isSome then return s
    else malformed name (.notMapping (← Act.look (·.kindName s)))

end Stratum.Document
