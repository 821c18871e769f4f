import Stratum.Heap.Merge
import Stratum.Shape

/-!
# Managed values

Whoever lays values over configs is a provider; a host may bring its own. The one here lays the same
values over every config, except over those whose names are on the exclusion list. It keeps a copy
of its own of the managed values, and each merge copies from it, so that no config shares an object
with it.
-/

namespace Stratum

/-- Whoever lays values over configs. -/
structure Provider where
  /-- Whether the config of a name gets no values. -/
  isExempt : String → Act Bool
  /-- Lays the values over a config, in place. -/
  mergeMap : Slot → Act Unit
  /-- Lays the values over a config and makes it into a shape. -/
  mergeObject : Slot → Shape → Act Slot

/-- No managed values, or the mapping that holds them with the names that are exempt. -/
inductive Overlay
  | nothing
  | managed (values : Slot) (exempt : List String)

namespace Overlay

/-- The topic of what an overlay logs. -/
def topic : String := "OVERLAY"

/-- The names in a list of texts. A text with a surrogate in it is the name of no config. -/
def namesOf : List Value → Except Failure (List String)
  | [] => .ok []
  | .atom (.text s) :: rest => (namesOf rest).map (s :: ·)
  | .atom (.brokenText _) :: rest => namesOf rest
  | _ :: _ => .error (.misuse .exclusions)

/-- The names on the exclusion list of a config. A config that counts as nothing has none, and so
has a list that counts as nothing. -/
def exclusions (config : Value) : Except Failure (List String) :=
  if config.isVoid then .ok []
  else match config.entries? with
    | none => .error (.notMapping config.fullKindName)
    | some es =>
      match es.find? (.text exclusionKey) with
      | none => .ok []
      | some v =>
        if v.isVoid then .ok []
        else match v with
          | .list items => namesOf items
          | _ => .error (.misuse .exclusions)

/-- A provider of managed values, which copies them. -/
def ofValues (values : Slot) (exempt : List String) : Act Overlay := do
  return .managed (← Act.make (·.copy values)) exempt

/-- A provider whose exclusion list comes from a config. -/
def ofConfig (values : Slot) (config : Value) : Act Overlay := do
  let exempt ← Act.ofExcept (exclusions config)
  ofValues values exempt

/-- Whether a config of this name gets no managed values. -/
def isExempt (o : Overlay) (name : String) : Bool :=
  match o with
  | nothing => false
  | managed _ exempt => exempt.contains name

/-- The names of the managed values in a message. -/
def appliedText (keys : List Atom) : Except Numeral.Fault String := do
  let names ← keys.mapM Atom.display
  .ok ("Applied " ++ toString keys.length ++ " managed key(s): " ++
    String.ofList (Text.escapePoints (List.intercalate (Text.codePoints ", ") names)))

/-- Lays the entries of a mapping of another heap over a config, in place, and tells their names. A
merge that would never end fails and leaves the config as it is. -/
def layOver (u : Heap) (values config : Slot) : Act Unit := do
  let upper := (u.entries? values).getD []
  match config, ← Act.look (·.entries? config) with
  | .ref addr, some lower =>
    let merged ← Act.makeOr .endless (·.mergeFrom u lower upper)
    Act.make fun h => ((), h.write addr (.map merged))
  | _, _ => return ()
  Act.tell .debug topic (← Act.ofExcept ((appliedText upper.keys).mapError .number))

/-- Lays the managed values over a config, in place. -/
def mergeMap (o : Overlay) (config : Slot) : Act Unit := do
  match o with
  | nothing => return ()
  | managed values _ => layOver (← Act.look id) values config

/-- Lays the managed values over a config and makes it into a shape. -/
def mergeObject (o : Overlay) (config : Slot) (shape : Shape) : Act Slot := do
  o.mergeMap config
  shape.build config

/-- The provider that lays an overlay over configs. -/
def provider (o : Overlay) : Provider :=
  ⟨fun name => return o.isExempt name, o.mergeMap, o.mergeObject⟩

instance : Coe Overlay Provider := ⟨provider⟩

end Overlay
end Stratum
