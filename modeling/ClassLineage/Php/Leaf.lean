import ClassLineage.Token

/-!
# Leaves of a syntax tree

The grammar divides a source text into leaves.  A leaf has a label, which the grammar
may have made up as a name (a named leaf) or taken from the text itself (an anonymous
one, such as a keyword or a brace), the text it covers, and its line.

## Main definitions

* `Leaf` — a leaf.
* `Leaf.toToken` — the token that a leaf makes.
-/

namespace ClassLineage

/-- A leaf of a syntax tree. -/
structure Leaf where
  /-- The label that the grammar gives it. -/
  label : String
  /-- The grammar names the leaf. -/
  named : Bool
  /-- The text that it covers. -/
  text : String
  /-- The line on which it starts, counted from one. -/
  line : Nat
deriving Repr, DecidableEq

/-- The token that a leaf makes. -/
def Leaf.toToken (leaf : Leaf) : Token where
  kind := .classify leaf.label leaf.text leaf.named
  text := leaf.text
  line := leaf.line

@[simp] theorem Leaf.text_toToken (leaf : Leaf) : leaf.toToken.text = leaf.text := rfl

@[simp] theorem Leaf.line_toToken (leaf : Leaf) : leaf.toToken.line = leaf.line := rfl

end ClassLineage
