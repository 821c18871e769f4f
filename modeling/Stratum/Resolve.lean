import Stratum.Overlay
import Stratum.Search

/-!
# Resolving names

From the name of a config to its value: the extensions are tried in order, and the first file that
is found and can be read decides, even if its content cannot be used. Managed values are laid over
what the file says, unless the name is exempt.
-/

namespace Stratum

/-- Where to look, and who lays values over what is found. -/
structure Resolver where
  search : Search
  provider : Provider

namespace Resolver

/-- The name of a stream in a message; of one without a name, the file's name. -/
def describe (s : Stream) (filename : String) : String := Text.escape (s.name.getD filename)

/-- Says that a stream could not be read. -/
def reportUnreadable (s : Stream) (filename : String) (r : Refusal) : Act Unit :=
  Act.tell .warning Search.topic
    ("Unable to read " ++ describe s filename ++ ": " ++ Text.escape r.message)

/-- The mapping of a stream's content. What cannot be used is put down to the stream. -/
def mappingOf (s : Stream) (filename : String) (bytes : List UInt8) : Act Slot :=
  tryCatch (Document.parseMapping bytes filename) fun
    | .malformed m => do
      let source := describe s filename
      Act.tell .warning Search.topic (m.message ++ " (" ++ source ++ ")")
      throw (.malformed { m with source })
    | e => throw e

/-- The mapping in the file of a name, if there is a file that can be read. -/
def load (r : Resolver) (t : FileTree) (filename hint : String) : Act (Option Slot) := do
  match ← r.search.locate t filename hint with
  | none => return none
  | some s =>
    match s.content with
    | .ok bytes => return some (← mappingOf s filename bytes)
    | .error refusal =>
      reportUnreadable s filename refusal
      return none

/-- The mapping in the first file of a name with one of the extensions. -/
def loadFirst (r : Resolver) (t : FileTree) (name hint : String) :
    List String → Act (Option Slot)
  | [] => return none
  | extension :: rest => do
    match ← r.load t (name ++ extension) hint with
    | some config => return some config
    | none => r.loadFirst t name hint rest

/-- Says that a config gets no managed values. -/
def reportExempt (name : String) : Act Unit :=
  Act.tell .debug Overlay.topic ("Skipping merge for exempt config " ++ Text.escape name)

/-- The config of a name as a mapping. -/
def resolveMap (r : Resolver) (t : FileTree) (name hint : String) : Act (Option Slot) := do
  match ← r.loadFirst t name hint Document.extensions with
  | none => return none
  | some config =>
    if ← r.provider.isExempt name then reportExempt name else r.provider.mergeMap config
    return some config

/-- The config of a name as an object of a shape. -/
def resolveObject (r : Resolver) (t : FileTree) (name : String) (shape : Shape) (hint : String) :
    Act (Option Slot) := do
  match ← r.loadFirst t name hint Document.extensions with
  | none => return none
  | some config =>
    if ← r.provider.isExempt name then
      reportExempt name
      return some (← shape.build config)
    else return some (← r.provider.mergeObject config shape)

/-- The content of a file as a text. -/
def resolveString (r : Resolver) (t : FileTree) (filename hint : String) : Act (Option String) := do
  match ← r.search.locate t filename hint with
  | none => return none
  | some s =>
    match s.content with
    | .error refusal =>
      reportUnreadable s filename refusal
      return none
    | .ok bytes =>
      match Text.Utf8.decode bytes with
      | .ok cs => return some (String.ofList cs)
      | .error fault =>
        let source := describe s filename
        let m : Malformed := ⟨.notText fault, source, source⟩
        Act.tell .warning Search.topic m.message
        throw (.malformed m)

end Resolver
end Stratum
