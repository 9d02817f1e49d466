import ClassLineage.Php.Leaf
import ClassLineage.Text.Utf8

/-!
# Syntax trees

A syntax tree over the bytes of a source.  Its leaves cover ranges of bytes; what is
between them is blank or of no interest.  The tree may hold leaves that a parser
supplied where the source lacks them: these cover nothing and make no token.

## Main definitions

* `SyntaxTree` — a node with the trees below it.
* `SyntaxTree.ends` — the nodes without children, from left to right.
* `SyntaxTree.walk` — the same for several trees, by a list of trees to visit.
* `SyntaxTree.leaves` — the leaves that cover text of a source.
* `SyntaxTree.tokens` — the tokens of a source.
-/

namespace ClassLineage

/-- What a node of a syntax tree says of itself. -/
structure SyntaxNode where
  /-- Its label. -/
  label : String
  /-- The grammar names the node. -/
  named : Bool
  /-- A parser supplied the node where the source lacks it. -/
  missing : Bool
  /-- The first byte that it covers. -/
  start : Nat
  /-- The byte after the last that it covers. -/
  stop : Nat
  /-- The line on which it starts, counted from zero. -/
  row : Nat
deriving Repr, DecidableEq

/-- A syntax tree: a node with the trees below it. -/
inductive SyntaxTree
  /-- A node with its children from left to right. -/
  | node (here : SyntaxNode) (children : List SyntaxTree)

namespace SyntaxTree

mutual

/-- The nodes of a tree that have no children, from left to right. -/
def ends : SyntaxTree → List SyntaxNode
  | .node here [] => [here]
  | .node _ (t :: ts) => endsOfAll (t :: ts)

/-- The nodes of several trees that have no children, from left to right. -/
def endsOfAll : List SyntaxTree → List SyntaxNode
  | [] => []
  | t :: ts => ends t ++ endsOfAll ts

end

mutual

/-- The number of nodes of a tree. -/
def size : SyntaxTree → Nat
  | .node _ children => sizeOfAll children + 1

/-- The number of nodes of several trees. -/
def sizeOfAll : List SyntaxTree → Nat
  | [] => 0
  | t :: ts => size t + sizeOfAll ts

end

theorem sizeOfAll_append (ts us : List SyntaxTree) :
    sizeOfAll (ts ++ us) = sizeOfAll ts + sizeOfAll us := by
  induction ts with
  | nil => simp [sizeOfAll]
  | cons t ts ih => simp [sizeOfAll, ih]; omega

/-- The nodes without children of the trees still to visit: a tree with children is
replaced by these. -/
def walk (ts : List SyntaxTree) : List SyntaxNode :=
  match ts with
  | [] => []
  | .node here [] :: rest => here :: walk rest
  | .node _ (c :: cs) :: rest => walk (c :: cs ++ rest)
termination_by sizeOfAll ts
decreasing_by
  · simp [sizeOfAll, size]
  · rw [sizeOfAll_append]; simp [sizeOfAll, size]

/-- The bytes of a source from one place up to another, as far as it has them. -/
def slice (source : List UInt8) (start stop : Nat) : List UInt8 :=
  (source.take stop).drop start

/-- The leaf that a node without children is, if it covers any text. -/
def leaf? (source : List UInt8) (n : SyntaxNode) : Option Leaf :=
  if n.missing || n.stop ≤ n.start then none
  else some ⟨n.label, n.named, Text.Utf8.decode (slice source n.start n.stop), n.row + 1⟩

/-- The leaves of a tree that cover text of a source, from left to right. -/
def leaves (source : List UInt8) (t : SyntaxTree) : List Leaf :=
  (walk [t]).filterMap (leaf? source)

/-- The tokens of a source with its syntax tree. -/
def tokens (source : List UInt8) (t : SyntaxTree) : List Token :=
  (leaves source t).map Leaf.toToken

end SyntaxTree
end ClassLineage
