import ClassLineage.Hierarchy.Build

/-!
# Descendants

The descendants of a name are the declared names from which a chain of edges leads
to it.  The search goes against the edges, nearest nodes first; it stops early once
it has seen every node of the graph.

## Main definitions

* `GraphError` — what a graph that was loaded may lack.
* `Hierarchy.sourcesInto` — the nodes that an edge of given types leads from.
* `Hierarchy.ancestors` — the nodes from which a chain leads to a node.
* `Hierarchy.descendants` — the names of those that are declared, in order.
-/

namespace ClassLineage

open Text

/-- What a graph that was loaded may lack where it is needed. -/
inductive GraphError
  /-- An edge, a node or the graph lacks an attribute. -/
  | missing (key : String)
deriving Repr, DecidableEq

/-- What is said of the lack: the attribute. -/
def GraphError.message : GraphError → String
  | missing key => key

namespace Hierarchy

/-- The types of all edges that declarations make. -/
def allEdgeTypes : List String := Relation.all.map (·.edgeType)

/-- The edge is of one of the types. -/
def isAllowed (types : List String) (e : Edge) : Except GraphError Bool :=
  match e.type? with
  | none => .error (.missing "type")
  | some (.str type) => .ok (types.contains type)
  | some _ => .ok false

/-- The nodes from which an edge of one of the types leads to a node. -/
def sourcesInto (types : List String) (g : Hierarchy) (target : String) :
    Except GraphError (List String) := do
  return (← (g.edgesInto target).filterM (isAllowed types)).map (·.source)

/-- The nodes seen, after those to visit have been visited one after the other: the
nodes from which an edge leads to a node are seen when it is visited, and visited later.
`fuel` bounds the visits; no node is visited twice. -/
def search (types : List String) (g : Hierarchy) :
    Nat → List String → List String → Except GraphError (List String)
  | 0, seen, _ => .ok seen
  | _ + 1, seen, [] => .ok seen
  | fuel + 1, seen, node :: visits => do
    let fresh := (← g.sourcesInto types node).filter (!seen.contains ·)
    let seen := seen ++ fresh
    -- once every node is seen, the edges of those still to visit are not looked at
    if seen.length = g.nodes.length then return seen
    else search types g fuel seen (visits ++ fresh)

/-- The nodes other than `target` from which a chain of edges leads to it, nearest
first. -/
def ancestors (types : List String) (g : Hierarchy) (target : String) :
    Except GraphError (List String) :=
  (·.drop 1) <$> search types g (g.nodes.length + 1) [target] [target]

/-- The full name of a node; none if it is external. -/
def declaredName? (g : Hierarchy) (id : String) : Except GraphError (Option String) :=
  let attributes := (g.node? id).getD []
  if (attributes.find? "external").any Json.isTruthy then .ok none
  else match attributes.find? "qualname" with
    | some (.str name) => .ok (some name)
    | _ => .error (.missing "qualname")

/-- Names in the order of their lower-case forms. -/
def sortNames (names : List String) : List String :=
  names.mergeSort fun a b => lower a ≤ lower b

/-- The names of the declarations from which a chain of edges of the types leads to a
name, in order; without types, edges of any type count. -/
def descendants (g : Hierarchy) (name : String) (types : List String) :
    Except GraphError (List String) := do
  if g.hasNode (nodeId name) then
    let allowed := if types.isEmpty then allEdgeTypes else types
    let ids ← g.ancestors allowed (nodeId name)
    return sortNames (← ids.mapM g.declaredName?).reduceOption
  else return []

end Hierarchy
end ClassLineage
