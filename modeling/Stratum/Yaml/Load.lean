import Stratum.Heap
import Stratum.Yaml.Graph.Grammar
import Stratum.Yaml.Graph.MergeKey
import Stratum.Yaml.Scalar

/-!
# Loading a document

The value of a document, made in a heap. An atom is made when its node is met. A container is made
empty when its node is met and filled later, those met first being filled first, so that a container
may hold itself; a node with several parents is one object in all of them. The faults of a document
are met in that order.
-/

namespace Stratum.Yaml

/-- How a container is filled. -/
inductive Filling
  | items
  | entries
  | members
  | pairs
  deriving DecidableEq, Repr

/-- A container that was made and is still empty. -/
structure Unfilled where
  node : NodeId
  addr : Addr
  filling : Filling

/-- The graph, the heap, what was made of each node so far, and the containers to fill, the latest
first. -/
structure Loader where
  graph : Graph
  heap : Heap
  made : Array (Option Slot)
  unfilled : List Unfilled

/-- A step of a loader. -/
abbrev Loading (α : Type) := StateT Loader (Except Fault) α

namespace Loading

/-- The node of a number. -/
def node (id : NodeId) : Loading Node := do return (← get).graph.node id

/-- The text of a scalar. A mapping with a value key stands for what that key holds. -/
def scalarText (g : Graph) : (fuel : Nat) → NodeId → Except Fault (List Text.CodePoint)
  | 0, id => .error (.semantic (g.node id).start)
  | fuel + 1, id =>
    match (g.node id).content with
    | .scalar text => .ok text
    | .sequence _ => .error (.semantic (g.node id).start)
    | .mapping entries =>
      match entries.find? fun (k, _) => g.tag k == .core .value with
      | some (_, v) => scalarText g fuel v
      | none => .error (.semantic (g.node id).start)

/-- The bytes of a text of base 64. -/
def bytesOf? (text : List Text.CodePoint) : Option (List UInt8) := do
  Text.Base64.decode? (← Text.CodePoint.chars? text)

/-- The date or the moment of a text; a surrogate is no part of one. -/
def timestampOf (text : List Text.CodePoint) : Except ScalarFault Atom :=
  match Text.CodePoint.chars? text with
  | some cs => Scalar.timestamp cs
  | none => .error .notTimestamp

/-- The atom that a text is under a tag, for the node of a number. -/
def atomOf (id : NodeId) (n : Node) (tag : CoreTag) (text : List Text.CodePoint) :
    Except Fault Atom :=
  let scalar (r : Except ScalarFault Atom) : Except Fault Atom := r.mapError .scalar
  match tag with
  | .null => .ok .null
  | .bool => scalar (Scalar.bool text)
  | .int => scalar (Scalar.int text)
  | .float => scalar (Scalar.float (id + 1) text)
  | .binary =>
    match bytesOf? text with
    | some bytes => .ok (.bytes bytes)
    | none => .error (.semantic n.start)
  | .timestamp =>
    match n.content with
    | .scalar _ => scalar (timestampOf text)
    | _ => .error (.scalar .mappingAsTimestamp)
  | .str => .ok (.ofCodePoints text)
  | _ => .error (.semantic n.start)

/-- A new empty container. -/
def newContainer (id : NodeId) (empty : Cell) (filling : Filling) : Loading Slot := do
  let l ← get
  let (addr, heap) := l.heap.alloc empty
  set { l with heap, unfilled := ⟨id, addr, filling⟩ :: l.unfilled }
  return .ref addr

/-- What a node is, made anew. -/
def make (id : NodeId) : Loading Slot := do
  let n ← node id
  match n.tag with
  | .core .seq => newContainer id (.list []) .items
  | .core .omap | .core .pairs => newContainer id (.list []) .pairs
  | .core .map => newContainer id (.map []) .entries
  | .core .set => newContainer id (.set []) .members
  | .core .merge | .core .value | .other _ => throw (.semantic n.start)
  | .core tag =>
    let g := (← get).graph
    let text ← scalarText g (g.nodes.size + 1) id
    return .atom (← atomOf id n tag text)

/-- What a node is; the same object each time. -/
def slot (id : NodeId) : Loading Slot := do
  match (← get).made[id]? with
  | some (some s) => return s
  | _ =>
    let s ← make id
    modify fun l => { l with made := l.made.setIfInBounds id (some s) }
    return s

/-- What a node is as a key. A container cannot be one. -/
def key (id : NodeId) : Loading Atom := do
  match ← slot id with
  | .atom a => return a
  | .ref _ => throw (.semantic (← node id).start)

/-- Puts the entries of a mapping into those found so far. -/
def putEntries (found : Entries Slot) : List (NodeId × NodeId) → Loading (Entries Slot)
  | [] => return found
  | (k, v) :: rest => do
    let a ← key k
    let s ← slot v
    putEntries (found.put a s) rest

/-- The entries of a mapping, its merge keys replaced. -/
def entriesOf (id : NodeId) : Loading (Entries Slot) := do
  let n ← node id
  match n.content with
  | .mapping _ =>
    let g ← Graph.flatten id (← get).graph
    modify fun l => { l with graph := g }
    putEntries [] (g.entries id)
  | _ => throw (.semantic n.start)

/-- The row of key and value of a mapping that has one entry. -/
def pair (id : NodeId) : Loading Slot := do
  let n ← node id
  match n.content with
  | .mapping [(k, v)] =>
    let first ← slot k
    let second ← slot v
    modifyGet fun l =>
      let (addr, heap) := l.heap.alloc (.row [first, second])
      (.ref addr, { l with heap })
  | _ => throw (.semantic n.start)

/-- What a container holds. -/
def contentOf (id : NodeId) (filling : Filling) : Loading Cell := do
  let n ← node id
  match filling, n.content with
  | .items, .sequence ids => return .list (← ids.mapM slot)
  | .pairs, .sequence ids => return .list (← ids.mapM pair)
  | .entries, _ => return .map (← entriesOf id)
  | .members, _ => return .set (← entriesOf id).keys
  | _, _ => throw (.semantic n.start)

/-- Fills a container. -/
def fill (u : Unfilled) : Loading Unit := do
  let c ← contentOf u.node u.filling
  modify fun l => { l with heap := l.heap.write u.addr c }

/-- Fills the containers that wait, round by round. Each round but the last fills a node that was
not filled before, so that the number of nodes is fuel enough. -/
def fillAll : (fuel : Nat) → Loading Unit
  | 0 => return ()
  | fuel + 1 => do
    match (← get).unfilled.reverse with
    | [] => return ()
    | us =>
      modify fun l => { l with unfilled := [] }
      us.forM fill
      fillAll fuel

end Loading

/-- The value of a graph, made in a heap. -/
def Graph.load (g : Graph) (root : NodeId) (h : Heap) : Except Fault (Slot × Heap) := do
  let start : Loader := ⟨g, h, Array.replicate g.nodes.size none, []⟩
  let steps : Loading Slot := do
    let s ← Loading.slot root
    Loading.fillAll (g.nodes.size + 1)
    return s
  let (s, l) ← steps.run start
  return (s, l.heap)

/-- The value of the one document in a text, made in a heap; null if there is no document. -/
def load (bytes : List UInt8) (h : Heap) : Except Fault (Slot × Heap) := do
  match ← Graph.ofSource (.ofBytes bytes) with
  | (_, none) => return (.atom .null, h)
  | (g, some root) => g.load root h

end Stratum.Yaml
