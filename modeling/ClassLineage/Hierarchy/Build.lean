import ClassLineage.Hierarchy

/-!
# The hierarchy of declarations

The graph of a list of declarations.  Every declared name gets a node, with what is
said of its first declaration; every name that is referred to and nowhere declared
gets a node that is marked as external.  A reference makes an edge, whose type is
that of the last reference between its two names.

## Main definitions

* `Relation.edgeType` — the type of the edges of a relation.
* `Hierarchy.declare`, `Hierarchy.refer` — what a declaration and a reference add.
* `Hierarchy.ofDeclarations` — the graph of a list of declarations.
-/

namespace ClassLineage

/-- The type of the edges that a relation makes. -/
def Relation.edgeType : Relation → String
  | extending => "EXTENDS"
  | implementing => "IMPLEMENTS"
  | usingTrait => "USES"

/-- The references of a declaration in order, each with its relation. -/
def Declaration.references (d : Declaration) : List (Relation × String) :=
  Relation.all.flatMap fun r => (d.related r).map (r, ·)

namespace Hierarchy

/-- The attributes of the node of a declaration. -/
def declaredAttributes (d : Declaration) : Entries Json :=
  [("type", .str (if d.kind = "interface" then "Interface" else "Class")),
    ("name", .str d.shortName), ("qualname", .str d.name), ("path", .str d.path),
    ("kind", .str d.kind), ("external", .bool false)]

/-- The attributes of the node of a name that is nowhere declared. -/
def externalAttributes (name : String) : Entries Json :=
  [("type", .str "External"), ("name", .str (Name.lastSegment name)), ("qualname", .str name),
    ("path", .null), ("kind", .null), ("external", .bool true)]

/-- The graph with the node of a declaration. -/
def declare (g : Hierarchy) (d : Declaration) : Hierarchy :=
  g.ensureNode (nodeId d.name) (declaredAttributes d)

/-- The graph with a reference from a node to a name. -/
def refer (source : String) (g : Hierarchy) (reference : Relation × String) : Hierarchy :=
  let target := nodeId reference.2
  (g.ensureNode target (externalAttributes reference.2)).addEdge source target
    [("type", .str reference.1.edgeType)]

/-- The graph with the references of a declaration. -/
def referAll (g : Hierarchy) (d : Declaration) : Hierarchy :=
  d.references.foldl (refer (nodeId d.name)) g

/-- The graph of a list of declarations. -/
def ofDeclarations (ds : List Declaration) : Hierarchy :=
  ds.foldl referAll (ds.foldl declare empty)

end Hierarchy
end ClassLineage
