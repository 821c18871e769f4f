import Stratum.Act
import Stratum.Text.Order

/-!
# Shapes

What a mapping can be made into: a plain mapping, an object that takes any names, the answer of a
function, or a record with fields. A record is checked name by name first, so that a name that it
does not have is reported as such.
-/

namespace Stratum

/-- A field of a record: its default, whether it is a parameter of the constructor, whether only by
keyword, and whether it is nothing more than a parameter. -/
structure Field where
  name : String
  default : Option Value
  isParameter : Bool
  keywordOnly : Bool
  onlyParameter : Bool

/-- A record: its fields, and the error that its constructor ends with, if it does. -/
structure RecordShape where
  name : String
  fields : List Field
  rejection : Option HostError

/-- What a function puts under a key: the argument of a name, and an atom of its own if there is no
such argument. -/
structure Term where
  argument : Option String
  otherwise : Atom

/-- A function: what it is called in messages, how it is called, and what it answers with: a new
mapping that is made of its arguments, or an error. -/
structure FunctionShape where
  name : String
  signature : Signature
  body : Except HostError (List (Atom × Term))

/-- What a mapping can be made into. -/
inductive Shape
  | mapping
  | openObject
  | function (f : FunctionShape)
  | record (r : RecordShape)

namespace Shape

/-- The name of a shape. -/
def name : Shape → String
  | mapping => "dict"
  | openObject => "SimpleNamespace"
  | function f => f.name
  | record r => r.name

/-- The fields of a record that its constructor takes: those by place first. -/
def parameterFields (r : RecordShape) : List Field :=
  r.fields.filter fun f => f.isParameter || f.onlyParameter

/-- How the constructor of a record is called. -/
def recordSignature (r : RecordShape) : Signature :=
  ⟨r.name ++ ".__init__", some "self",
    (parameterFields r).map fun f => ⟨f.name, f.default.isSome, f.keywordOnly⟩⟩

/-- The names that a record takes from a mapping. -/
def acceptedNames (r : RecordShape) : List String :=
  (r.fields.filter fun f => f.isParameter && !f.onlyParameter).map (·.name)

/-- The name that a key is as an argument; only a text is one. -/
def argumentName? : Atom → Option String
  | .text s => some s
  | .brokenText b => some b.written
  | _ => none

/-- The entries of a mapping as named arguments. -/
def arguments (es : Entries Slot) : Except CallFault (List (String × Slot)) :=
  es.mapM fun (k, s) =>
    match argumentName? k with
    | some name => .ok (name, s)
    | none => .error .keywordNotText

/-- The entries of a mapping as the arguments that a shape is called with. -/
def argumentsFor (shape : Shape) (es : Entries Slot) : Act (List (String × Slot)) := do
  match arguments es with
  | .ok args => return args
  | .error fault => throw (.misuse (.badCall shape.name fault))

/-- The arguments of a call that fits the signature. -/
def callWith (shape : Shape) (signature : Signature) (es : Entries Slot) :
    Act (List (String × Slot)) := do
  let args ← argumentsFor shape es
  match signature.fault? (args.map Prod.fst) with
  | some fault => throw (.misuse (.badCall shape.name fault))
  | none => return args

/-- What a term stands for among arguments. -/
def termSlot (args : List (String × Slot)) (t : Term) : Slot :=
  (t.argument.bind (args.lookup ·)).getD (.atom t.otherwise)

/-- The failure that an error of a shape's own code is: a misuse if it concerns the call. -/
def rejected (name : String) (e : HostError) : Failure :=
  if e.kind = .type then .misuse (.badValue name e) else .host e

/-- What a function answers with. -/
def answerOf (f : FunctionShape) (args : List (String × Slot)) : Act Slot :=
  match f.body with
  | .error e => throw (rejected f.name e)
  | .ok terms => Act.make fun h =>
    let (addr, h) := h.alloc (.map (terms.map fun (k, t) => (k, termSlot args t)))
    (.ref addr, h)

/-- The fields of a new record: what was given, else a default of its own. -/
def fieldSlots (args : List (String × Slot)) : List Field → Act (List (String × Slot))
  | [] => return []
  | f :: rest => do
    let given := if f.isParameter then args.lookup f.name else none
    match given, f.default with
    | some s, _ => return (f.name, s) :: (← fieldSlots args rest)
    | none, some v =>
      let s ← Act.make (·.store v)
      return (f.name, s) :: (← fieldSlots args rest)
    | none, none => fieldSlots args rest

/-- Whether a key is a name that a record takes. -/
def isAccepted (r : RecordShape) : Atom → Bool
  | .text name => (acceptedNames r).contains name
  | _ => false

/-- The keys of a mapping that are no fields of a record, as texts in order. -/
def unknownNames (r : RecordShape) (es : Entries Slot) : Except Numeral.Fault (List String) := do
  let names ← (es.keys.filter (!isAccepted r ·)).mapM Atom.display
  .ok ((Text.sortPoints names).map fun name => String.ofList (Text.CodePoint.written name))

/-- A new record. -/
def buildRecord (r : RecordShape) (es : Entries Slot) : Act Slot := do
  let unknown ← Act.ofExcept ((unknownNames r es).mapError .number)
  if !unknown.isEmpty then throw (.misuse (.unknownFields r.name unknown))
  let args ← callWith (.record r) (recordSignature r) es
  let fields ← fieldSlots args (r.fields.filter (!·.onlyParameter))
  match r.rejection with
  | some e => throw (rejected r.name e)
  | none =>
    Act.make fun h =>
      let (addr, h) := h.alloc (.object r.name fields)
      (.ref addr, h)

/-- Makes a value into a shape. -/
def build (shape : Shape) (data : Slot) : Act Slot := do
  match ← Act.look (·.entries? data) with
  | none => throw (.misuse (.notMapping shape.name (← Act.look (·.kindName data))))
  | some es =>
    match shape with
    | mapping =>
      let _ ← argumentsFor shape es
      Act.make fun h =>
        let (addr, h) := h.alloc (.map es)
        (.ref addr, h)
    | openObject =>
      let args ← argumentsFor shape es
      Act.make fun h =>
        let (addr, h) := h.alloc (.object shape.name args)
        (.ref addr, h)
    | function f => answerOf f (← callWith shape f.signature es)
    | record r => buildRecord r es

end Shape
end Stratum
