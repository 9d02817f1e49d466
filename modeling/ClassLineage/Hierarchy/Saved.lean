import ClassLineage.Hierarchy.Descendants
import ClassLineage.Json.Parser
import ClassLineage.Json.Printer

/-!
# Saved graphs

A graph as a JSON value, and back.  The value lists the nodes and the edges, each with
its attributes followed by what identifies it; nodes that only edges name are
added on the way back.

## Main definitions

* `Hierarchy.toJson`, `Hierarchy.ofJson` — a graph as a value, and the graph of a value.
* `Hierarchy.save`, `Hierarchy.load` — the same for the text of a file.
-/

namespace ClassLineage

/-- Why a saved graph is not loaded. -/
inductive LoadError
  /-- The text is no JSON. -/
  | notJson
  /-- An entry is missing. -/
  | incomplete (e : GraphError)
deriving Repr, DecidableEq

namespace Hierarchy

/-- A node as a value. -/
def nodeJson (node : String × Entries Json) : Json :=
  .obj (node.2.put "id" (.str node.1))

/-- An edge as a value. -/
def edgeJson (e : Edge) : Json :=
  .obj ((e.attributes.put "source" (.str e.source)).put "target" (.str e.target))

/-- A graph as a value. -/
def toJson (g : Hierarchy) : Json :=
  .obj [("directed", .bool true), ("multigraph", .bool false), ("graph", g.label),
    ("nodes", .arr (g.nodes.map nodeJson)), ("edges", .arr (g.edgesInOrder.map edgeJson))]

/-- The entries of a value, if it is an object. -/
def entriesOf : Json → Entries Json
  | .obj entries => entries
  | _ => []

/-- The list that an entry holds. -/
def listAt (key : String) (v : Json) : Except GraphError (List Json) :=
  match v.get? key with
  | some (.arr items) => .ok items
  | _ => .error (.missing key)

/-- The text that an entry holds. -/
def textAt (key : String) (v : Json) : Except GraphError String :=
  match v.get? key with
  | some (.str s) => .ok s
  | _ => .error (.missing key)

/-- The entries of a value but for those of given keys. -/
def attributesOf (keys : List String) (v : Json) : Entries Json :=
  (entriesOf v).filter fun e => !keys.contains e.1

/-- The graph with the node of a value, which must have a text for its id.  A saved graph has one
for every node.  In a file made by hand a node may lack it, and a graph library would number such a
node by where it stands in the list, or take a value of another kind for its id; here the file
counts as incomplete. -/
def loadNode (g : Hierarchy) (v : Json) : Except GraphError Hierarchy := do
  return g.mergeNode (← textAt "id" v) (attributesOf ["id"] v)

/-- The graph with the edge of a value. -/
def loadEdge (g : Hierarchy) (v : Json) : Except GraphError Hierarchy := do
  return g.addEdge (← textAt "source" v) (← textAt "target" v)
    (attributesOf ["source", "target"] v)

/-- The graph of a value. -/
def ofJson (v : Json) : Except GraphError Hierarchy := do
  let start := { empty with label := (v.get? "graph").getD (.obj []) }
  let g ← (← listAt "nodes" v).foldlM loadNode start
  (← listAt "edges" v).foldlM loadEdge g

/-- The text of the file that a graph is saved to. -/
def save (g : Hierarchy) : String := g.toJson.render

/-- The graph that the text of a file holds. -/
def load (text : String) : Except LoadError Hierarchy :=
  match Json.parse? text with
  | none => .error .notJson
  | some v => (ofJson v).mapError .incomplete

end Hierarchy
end ClassLineage
