import ClassLineage.Declaration
import ClassLineage.Name

/-!
# Hierarchy graphs

A directed graph of classes and interfaces.  A node stands for a name without regard
to case; an edge leads from a declaration to what it extends, implements or uses.
Nodes and edges carry attributes, in the order in which they were set, and stand in
the order in which they were added; there is at most one edge from a node to another.

## Main definitions

* `Hierarchy` — the graphs.
* `Hierarchy.nodeId` — the node of a name.
* `Hierarchy.ensureNode`, `Hierarchy.mergeNode`, `Hierarchy.addEdge` — how they grow.
* `Hierarchy.edgesInOrder` — the edges by their sources.
-/

namespace ClassLineage

/-- An edge of a graph. -/
structure Edge where
  /-- The node that it leaves. -/
  source : String
  /-- The node that it reaches. -/
  target : String
  /-- Its attributes. -/
  attributes : Entries Json

namespace Edge

/-- The edge leads from one given node to another. -/
def joins (source target : String) (e : Edge) : Bool := e.source = source && e.target = target

/-- The relation that the edge stands for, if it tells one. -/
def type? (e : Edge) : Option Json := e.attributes.find? "type"

end Edge

/-- A directed graph of classes and interfaces. -/
structure Hierarchy where
  /-- What is said of the graph as a whole. -/
  label : Json
  /-- The nodes with their attributes. -/
  nodes : Entries (Entries Json)
  /-- The edges. -/
  edges : List Edge

namespace Hierarchy

/-- The graph without nodes. -/
def empty : Hierarchy := ⟨.obj [], [], []⟩

/-- The node that stands for a name. -/
def nodeId (name : String) : String := "class:" ++ Name.normalize name

/-- The attributes of a node, if the graph has it. -/
def node? (id : String) (g : Hierarchy) : Option (Entries Json) := g.nodes.find? id

/-- The graph has a node. -/
def hasNode (id : String) (g : Hierarchy) : Bool := (g.node? id).isSome

/-- The edge from a node to another, if the graph has it. -/
def edge? (source target : String) (g : Hierarchy) : Option Edge :=
  g.edges.find? (·.joins source target)

/-- The graph with a node of these attributes, unless it has the node already. -/
def ensureNode (id : String) (attributes : Entries Json) (g : Hierarchy) : Hierarchy :=
  if g.hasNode id then g else { g with nodes := g.nodes ++ [(id, attributes)] }

/-- The graph with a node, on which these attributes are set. -/
def mergeNode (id : String) (attributes : Entries Json) (g : Hierarchy) : Hierarchy :=
  { g with nodes := g.nodes.put id (attributes.putAll ((g.node? id).getD [])) }

/-- A list of edges with one edge, on which these attributes are set: in its old place
if it is there, else at the end. -/
def putEdge (source target : String) (attributes : Entries Json) : List Edge → List Edge
  | [] => [⟨source, target, attributes⟩]
  | e :: rest =>
    if e.joins source target then ⟨source, target, attributes.putAll e.attributes⟩ :: rest
    else e :: putEdge source target attributes rest

/-- The graph with an edge, on which these attributes are set; its nodes are added where
they are missing. -/
def addEdge (source target : String) (attributes : Entries Json) (g : Hierarchy) : Hierarchy :=
  let g := (g.ensureNode source []).ensureNode target []
  { g with edges := putEdge source target attributes g.edges }

/-- The edges that leave a node. -/
def edgesFrom (source : String) (g : Hierarchy) : List Edge :=
  g.edges.filter fun e => e.source = source

/-- The edges that reach a node. -/
def edgesInto (target : String) (g : Hierarchy) : List Edge :=
  g.edges.filter fun e => e.target = target

/-- The edges by their sources, these in the order of the nodes. -/
def edgesInOrder (g : Hierarchy) : List Edge := g.nodes.keys.flatMap (g.edgesFrom ·)

end Hierarchy
end ClassLineage
