import Stratum.Yaml.Graph

/-!
# Merge keys

An entry under a merge key stands for the entries of another mapping, or of several. They come
before the mapping's own entries, so that its own ones win; of several mappings the first one wins.
A mapping that is drawn on has its own merge keys replaced first, and once replaced they are gone.
An entry under a value key is an ordinary one under that text.
-/

namespace Stratum.Yaml.Graph

/-- An entry that does not stand for itself. -/
inductive Special
  | merge (value : NodeId)
  | value (key : NodeId)

/-- The first entry of a list that does not stand for itself, with its place. -/
def special? (g : Graph) : List (NodeId × NodeId) → Option (Nat × Special)
  | [] => none
  | (k, v) :: rest =>
    match g.tag k with
    | .core .merge => some (0, .merge v)
    | .core .value => some (0, .value k)
    | _ => (special? g rest).map fun (n, s) => (n + 1, s)

/-- The number of entries in a graph. -/
def entryCount (g : Graph) : Nat :=
  g.nodes.foldl (fun count n => count + match n.content with | .mapping es => es.length | _ => 0) 0

/-- The entries of several mappings, each after a preparation. What is no mapping is at fault. -/
def entriesOfAll (prepare : NodeId → Graph → Except Fault Graph) :
    List NodeId → Graph → Except Fault (List (List (NodeId × NodeId)) × Graph)
  | [], g => .ok ([], g)
  | id :: rest, g =>
    match (g.node id).content with
    | .mapping _ => do
      let g ← prepare id g
      let entries := g.entries id
      let (lists, g) ← entriesOfAll prepare rest g
      .ok (entries :: lists, g)
    | _ => .error (.semantic (g.node id).start)

/-- Replaces the merge keys that are left in a mapping, `drawn` being the entries that others stood
for. Each round takes an entry away that does not stand for itself, or lets it stand for itself. -/
def flattenFrom : (fuel : Nat) → NodeId → (drawn : List (NodeId × NodeId)) → Graph →
    Except Fault Graph
  | 0, _, _, g => .ok g
  | fuel + 1, id, drawn, g =>
    let entries := g.entries id
    match g.special? entries with
    | none => .ok (if drawn.isEmpty then g else g.setContent id (.mapping (drawn ++ entries)))
    | some (_, .value key) => flattenFrom fuel id drawn (g.setTag key (.core .str))
    | some (place, .merge source) => do
      let g := g.setContent id (.mapping (entries.eraseIdx place))
      match (g.node source).content with
      | .mapping _ =>
        let g ← flattenFrom fuel source [] g
        flattenFrom fuel id (drawn ++ g.entries source) g
      | .sequence items =>
        let (lists, g) ← entriesOfAll (fun item g => flattenFrom fuel item [] g) items g
        flattenFrom fuel id (drawn ++ lists.reverse.flatten) g
      | .scalar _ => .error (.semantic (g.node source).start)

/-- Replaces the merge keys of a mapping. -/
def flatten (id : NodeId) (g : Graph) : Except Fault Graph :=
  flattenFrom (g.entryCount + 1) id [] g

end Stratum.Yaml.Graph
