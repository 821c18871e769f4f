import Stratum.Yaml.Fault
import Stratum.Yaml.Tag

/-!
# Node graphs

A document as a graph: scalars, sequences and mappings that may have several parents, and that may
stand inside themselves. Nodes are numbered in the order in which they start.
-/

namespace Stratum.Yaml

/-- The number of a node. -/
abbrev NodeId := Nat

/-- What a node holds. -/
inductive Content
  | scalar (text : List Text.CodePoint)
  | sequence (items : List NodeId)
  | mapping (entries : List (NodeId × NodeId))
  deriving DecidableEq, Repr

/-- A node with its tag and the mark where it starts. -/
structure Node where
  tag : Tag
  content : Content
  start : Mark
  deriving DecidableEq, Repr

/-- The nodes of a document. -/
structure Graph where
  nodes : Array Node

namespace Graph

/-- No nodes. -/
def empty : Graph := ⟨#[]⟩

/-- The node of a number; an empty text without a place for a number that no node has. -/
def node (g : Graph) (id : NodeId) : Node :=
  g.nodes[id]?.getD ⟨.core .null, .scalar [], ⟨0, 0⟩⟩

/-- The tag of a node. -/
def tag (g : Graph) (id : NodeId) : Tag := (g.node id).tag

/-- A new node. -/
def add (g : Graph) (n : Node) : NodeId × Graph := (g.nodes.size, ⟨g.nodes.push n⟩)

/-- Another content for a node. -/
def setContent (g : Graph) (id : NodeId) (c : Content) : Graph :=
  ⟨g.nodes.modify id fun n => { n with content := c }⟩

/-- Another tag for a node. -/
def setTag (g : Graph) (id : NodeId) (t : Tag) : Graph :=
  ⟨g.nodes.modify id fun n => { n with tag := t }⟩

/-- The entries of a mapping; none for any other node. -/
def entries (g : Graph) (id : NodeId) : List (NodeId × NodeId) :=
  match (g.node id).content with
  | .mapping es => es
  | _ => []

end Graph
end Stratum.Yaml
