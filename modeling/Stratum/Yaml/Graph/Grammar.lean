import Stratum.Yaml.Graph
import Stratum.Yaml.Token.Lexer

/-!
# From tokens to a graph

The grammar of a document, read from its tokens: a stream holds one document at most, a node may
carry an anchor and a tag, and a reference stands for the node that its anchor was put on. What
stands where the grammar wants something else is a fault at the mark of that token.
-/

namespace Stratum.Yaml

/-- The tokens that are left and the fault behind them, the nodes so far, the anchors put on them,
and what the handles of tags stand for. -/
structure Parse where
  tokens : List Token
  fault : Option Fault
  graph : Graph
  anchors : List (List Char × NodeId)
  handles : List (List Char × List Char)

/-- A step through the tokens. -/
abbrev Parsing (α : Type) := StateT Parse (Except Fault) α

namespace Parsing

/-- The next token. Behind the last one is the fault that the text ends with; a whole text ends with
a token that is never passed over. -/
def peek : Parsing Token := fun p =>
  match p.tokens with
  | t :: _ => .ok (t, p)
  | [] => .error (p.fault.getD .unreadable)

/-- Passes over the next token. -/
def take : Parsing Token := do
  let t ← peek
  modify fun p => { p with tokens := p.tokens.drop 1 }
  return t

/-- Whether the next token has one of the kinds. -/
def nextIs (kinds : List TokenKind) : Parsing Bool := do return kinds.contains (← peek).kind

/-- A grammatical fault at the next token. -/
def unexpected {α : Type} : Parsing α := do throw (.grammatical (← peek).start)

/-! ## Directives -/

/-- What the handles stand for if no directive says otherwise. -/
def usualHandles : List (List Char × List Char) := [(['!'], ['!']), (['!', '!'], Tag.coreStem)]

/-- The directives ahead: whether a version was given, and the handles they define. A version, and a
handle, may be given once, and the version has to be the first one. -/
def directives : (fuel : Nat) → (versioned : Bool) → (handles : List (List Char × List Char)) →
    Parsing (List (List Char × List Char))
  | 0, _, handles => return handles
  | fuel + 1, versioned, handles => do
    let t ← peek
    match t.kind with
    | .directive d =>
      let _ ← take
      match d with
      | .version major _ =>
        if versioned || major != 1 then throw (.grammatical t.start)
        else directives fuel true handles
      | .handle name stem =>
        if (handles.lookup name).isSome then throw (.grammatical t.start)
        else directives fuel versioned (handles ++ [(name, stem)])
      | .other => directives fuel versioned handles
    | _ => return handles

/-! ## Nodes -/

/-- What stands before the content of a node. -/
structure Properties where
  anchor : Option (List Char)
  tag : Option (List Char)
  start : Option Mark

/-- The anchor ahead, if there is one, with its mark. -/
def anchor? : Parsing (Option (List Char × Mark)) := do
  match ← peek with
  | ⟨.anchor name, start, _⟩ =>
    let _ ← take
    return some (name, start)
  | _ => return none

/-- The tag ahead, if there is one, with its mark. -/
def tag? : Parsing (Option ((Option (List Char) × List Char) × Mark)) := do
  match ← peek with
  | ⟨.tag handle suffix, start, _⟩ =>
    let _ ← take
    return some ((handle, suffix), start)
  | _ => return none

/-- The whole name of a tag; its handle has to stand for something. -/
def tagName (handle : Option (List Char)) (suffix : List Char) (start : Mark) :
    Parsing (List Char) := do
  match handle with
  | none => return suffix
  | some h =>
    match (← get).handles.lookup h with
    | some stem => return stem ++ suffix
    | none => throw (.grammatical start)

/-- The anchor and the tag ahead, in either order. -/
def properties : Parsing Properties := do
  let before ← anchor?
  let tag ← tag?
  let after ← if before.isNone && tag.isSome then anchor? else pure none
  let name ← match tag with
    | none => pure none
    | some ((handle, suffix), start) => some <$> tagName handle suffix start
  let anchor := before.or after
  return ⟨anchor.map Prod.fst, name, (before.map Prod.snd).or (tag.map Prod.snd)⟩

/-- A new node. -/
def add (n : Node) : Parsing NodeId := modifyGet fun p =>
  let (id, g) := p.graph.add n
  (id, { p with graph := g })

/-- An empty scalar where a node was left out. -/
def absent (m : Mark) : Parsing NodeId := add ⟨.ofPlain [], .scalar [], m⟩

/-- A new node with its anchor, which no other node may have. -/
def addAnchored (anchor : Option (List Char)) (n : Node) : Parsing NodeId := do
  match anchor with
  | none => add n
  | some name =>
    if ((← get).anchors.lookup name).isSome then throw (.referential n.start)
    let id ← add n
    modify fun p => { p with anchors := (name, id) :: p.anchors }
    return id

/-- The node that a reference stands for. -/
def referred (name : List Char) (start : Mark) : Parsing NodeId := do
  match (← get).anchors.lookup name with
  | some id => return id
  | none => throw (.referential start)

/-- The name of a tag that leaves the choice to the content. -/
def openTag : List Char := ['!']

/-- The tag of a collection. -/
def collectionTag (name : Option (List Char)) (usual : CoreTag) : Tag :=
  match name with
  | none => .core usual
  | some n => if n = openTag then .core usual else .ofName n

/-- The tag of a scalar. A quoted one is a text unless its tag leaves the choice to the content. -/
def scalarTag (name : Option (List Char)) (text : List Text.CodePoint) (plain : Bool) : Tag :=
  match name with
  | none => if plain then .ofText text else .core .str
  | some n => if n = openTag then .ofText text else .ofName n

/-- Which collections may start at a node. -/
inductive Place
  | flow
  | block
  | blockValue
  deriving DecidableEq, Repr

/-- Fills a sequence. -/
def fillSequence (id : NodeId) (items : List NodeId) : Parsing NodeId := do
  modify fun p => { p with graph := p.graph.setContent id (.sequence items) }
  return id

/-- Fills a mapping. -/
def fillMapping (id : NodeId) (entries : List (NodeId × NodeId)) : Parsing NodeId := do
  modify fun p => { p with graph := p.graph.setContent id (.mapping entries) }
  return id

mutual

/-- The node ahead. Each call of these functions comes at most four calls after a token was passed
over, so that five times the number of tokens is fuel enough. -/
def node : (fuel : Nat) → Place → Parsing NodeId
  | 0, _ => unexpected
  | fuel + 1, place => do
    match ← peek with
    | ⟨.reference name, start, _⟩ =>
      let _ ← take
      referred name start
    | _ =>
      let props ← properties
      let t ← peek
      let start := props.start.getD t.start
      let sequence := addAnchored props.anchor ⟨collectionTag props.tag .seq, .sequence [], start⟩
      let mapping := addAnchored props.anchor ⟨collectionTag props.tag .map, .mapping [], start⟩
      match t.kind, place with
      | .blockEntry, .blockValue =>
        let id ← sequence
        fillSequence id (← plainItems fuel)
      | .scalar text plain, _ =>
        let _ ← take
        addAnchored props.anchor ⟨scalarTag props.tag text plain, .scalar text, start⟩
      | .flowSequenceStart, _ =>
        let id ← sequence
        let _ ← take
        fillSequence id (← flowItems fuel true)
      | .flowMappingStart, _ =>
        let id ← mapping
        let _ ← take
        fillMapping id (← flowEntries fuel true)
      | .blockSequenceStart, .block | .blockSequenceStart, .blockValue =>
        let id ← sequence
        let _ ← take
        fillSequence id (← blockItems fuel)
      | .blockMappingStart, .block | .blockMappingStart, .blockValue =>
        let id ← mapping
        let _ ← take
        fillMapping id (← blockEntries fuel)
      | _, _ =>
        if props.anchor.isNone && props.tag.isNone then throw (.grammatical t.start)
        else addAnchored props.anchor ⟨scalarTag props.tag [] true, .scalar [], start⟩

/-- The node ahead, or an empty scalar at the mark if one of the kinds is next. -/
def nodeUnless : (fuel : Nat) → Place → List TokenKind → Mark → Parsing NodeId
  | 0, _, _, _ => unexpected
  | fuel + 1, place, kinds, m => do
    if ← nextIs kinds then absent m else node fuel place

/-- The value ahead. Without its mark the value is an empty scalar. -/
def valueNode : (fuel : Nat) → Place → List TokenKind → Parsing NodeId
  | 0, _, _ => unexpected
  | fuel + 1, place, kinds => do
    let t ← peek
    if t.kind = .value then
      let _ ← take
      nodeUnless fuel place kinds t.stop
    else absent t.start

/-- The items of a block sequence up to its end. -/
def blockItems : (fuel : Nat) → Parsing (List NodeId)
  | 0 => unexpected
  | fuel + 1 => do
    let t ← peek
    match t.kind with
    | .blockEntry =>
      let _ ← take
      let id ← nodeUnless fuel .block [.blockEntry, .blockEnd] t.stop
      return id :: (← blockItems fuel)
    | .blockEnd =>
      let _ ← take
      return []
    | _ => unexpected

/-- The items of a sequence that stands at the column of the mapping around it. -/
def plainItems : (fuel : Nat) → Parsing (List NodeId)
  | 0 => unexpected
  | fuel + 1 => do
    let t ← peek
    match t.kind with
    | .blockEntry =>
      let _ ← take
      let id ← nodeUnless fuel .block [.blockEntry, .key, .value, .blockEnd] t.stop
      return id :: (← plainItems fuel)
    | _ => return []

/-- The entries of a block mapping up to its end. -/
def blockEntries : (fuel : Nat) → Parsing (List (NodeId × NodeId))
  | 0 => unexpected
  | fuel + 1 => do
    let t ← peek
    match t.kind with
    | .key =>
      let _ ← take
      let k ← nodeUnless fuel .blockValue [.key, .value, .blockEnd] t.stop
      let v ← valueNode fuel .blockValue [.key, .value, .blockEnd]
      return (k, v) :: (← blockEntries fuel)
    | .blockEnd =>
      let _ ← take
      return []
    | _ => unexpected

/-- The items of a flow sequence up to its end. A key makes a mapping of one entry. -/
def flowItems : (fuel : Nat) → (first : Bool) → Parsing (List NodeId)
  | 0, _ => unexpected
  | fuel + 1, first => do
    let closes : List TokenKind := [.flowEntry, .flowSequenceEnd]
    if ← nextIs [.flowSequenceEnd] then
      let _ ← take
      return []
    if !first then
      if ← nextIs [.flowEntry] then
        let _ ← take
      else unexpected
    let t ← peek
    match t.kind with
    | .flowSequenceEnd =>
      let _ ← take
      return []
    | .key =>
      let id ← add ⟨.core .map, .mapping [], t.start⟩
      let _ ← take
      let k ← nodeUnless fuel .flow (.value :: closes) t.stop
      let v ← valueNode fuel .flow closes
      let _ ← fillMapping id [(k, v)]
      return id :: (← flowItems fuel false)
    | _ =>
      let id ← node fuel .flow
      return id :: (← flowItems fuel false)

/-- The entries of a flow mapping up to its end. A node without a mark is a key without a value. -/
def flowEntries : (fuel : Nat) → (first : Bool) → Parsing (List (NodeId × NodeId))
  | 0, _ => unexpected
  | fuel + 1, first => do
    let closes : List TokenKind := [.flowEntry, .flowMappingEnd]
    if ← nextIs [.flowMappingEnd] then
      let _ ← take
      return []
    if !first then
      if ← nextIs [.flowEntry] then
        let _ ← take
      else unexpected
    let t ← peek
    match t.kind with
    | .flowMappingEnd =>
      let _ ← take
      return []
    | .key =>
      let _ ← take
      let k ← nodeUnless fuel .flow (.value :: closes) t.stop
      let v ← valueNode fuel .flow closes
      return (k, v) :: (← flowEntries fuel false)
    | _ =>
      let k ← node fuel .flow
      let v ← absent (← peek).start
      return (k, v) :: (← flowEntries fuel false)

end

/-! ## Documents -/

/-- Passes over the marks that end documents. -/
def skipEnds : (fuel : Nat) → Parsing Unit
  | 0 => return ()
  | fuel + 1 => do
    if ← nextIs [.documentEnd] then
      let _ ← take
      skipEnds fuel

/-- The start of a document that is marked, or may come after another one: its mark, unless the
stream ends there. -/
def documentStart? (fuel : Nat) : Parsing (Option Mark) := do
  skipEnds fuel
  let t ← peek
  if t.kind = .streamEnd then return none
  else
    let given ← directives fuel false []
    let usual := usualHandles.filter fun (h, _) => (given.lookup h).isNone
    modify fun p => { p with handles := given ++ usual }
    if ← nextIs [.documentStart] then
      let _ ← take
      return some t.start
    else unexpected

/-- Whether the next token belongs to a directive or a mark of a document. -/
def atDirective : Parsing Bool := do
  match (← peek).kind with
  | .directive _ => return true
  | _ => return false

/-- The content of a document behind its mark. -/
def markedContent (fuel : Nat) : Parsing NodeId := do
  if (← atDirective) || (← nextIs [.documentStart, .documentEnd, .streamEnd]) then
    absent (← peek).start
  else node fuel .block

/-- The one document of a stream, if there is one. Another one is a fault at its start. -/
def stream (fuel : Nat) : Parsing (Option NodeId) := do
  let marked := (← atDirective) || (← nextIs [.documentStart, .streamEnd])
  let root ←
    if marked then
      match ← documentStart? fuel with
      | none => return none
      | some _ => markedContent fuel
    else
      modify fun p => { p with handles := usualHandles }
      node fuel .block
  if ← nextIs [.documentEnd] then
    let _ ← take
  match ← documentStart? fuel with
  | none => return some root
  | some start => throw (.referential start)

end Parsing

/-- The graph of a text and its root; no root if the text has no document. -/
def Graph.ofSource (s : Source) : Except Fault (Graph × Option NodeId) :=
  let (tokens, fault) := Token.ofSource s
  let start : Parse := ⟨tokens, fault, .empty, [], []⟩
  ((Parsing.stream (5 * tokens.length + 8)).run start).map fun (root, p) => (p.graph, root)

end Stratum.Yaml
