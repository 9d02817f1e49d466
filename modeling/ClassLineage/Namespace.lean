import ClassLineage.Name
import ClassLineage.Token.Skip

/-!
# Namespace declarations

After the keyword `namespace` comes the name of the namespace that the following
declarations belong to, ended by a semicolon or by the brace of its block; without
a name it is the global namespace.  When a separator follows the keyword, the word
is no declaration but the start of a name relative to the current namespace.

## Main definitions

* `NamespaceHead` — what is read after the keyword.
* `NamespaceHead.read` — reads it.
* `NamespaceHead.opensBlock` — what is read ends by opening a block.
-/

namespace ClassLineage

open Token

/-- What is read after the keyword `namespace`. -/
structure NamespaceHead where
  /-- The namespace declared, if the keyword declares one. -/
  declared : Option String
  /-- The tokens left. -/
  rest : List Token
deriving Repr, DecidableEq

namespace NamespaceHead

/-- The tokens after the semicolon or the brace that ends a head, if one is there. -/
def dropEnd : List Token → List Token
  | [] => []
  | t :: ts => if t.isSemicolon || t.opensBlock then ts else t :: ts

/-- A separator is the next token that is not trivia. -/
def isRelative (ts : List Token) : Bool := (skipTrivia ts).head?.any (·.kind == .separator)

/-- Reads what follows the keyword. -/
def read (ts : List Token) : NamespaceHead :=
  if isRelative ts then ⟨none, skipTrivia ts⟩
  else
    ⟨some (Name.trimSeparators ((collectName ts).1.getD "")), dropEnd (collectName ts).2⟩

/-- The last token read opens a block. -/
def opensBlock (ts : List Token) (head : NamespaceHead) : Bool :=
  (ts.take (ts.length - head.rest.length)).getLast?.any Token.opensBlock

theorem dropEnd_suffix (ts : List Token) : dropEnd ts <:+ ts := by
  cases ts with
  | nil => exact List.suffix_rfl
  | cons t ts =>
    show (if t.isSemicolon || t.opensBlock then ts else t :: ts) <:+ t :: ts
    split
    · exact List.suffix_cons _ _
    · exact List.suffix_rfl

theorem read_suffix (ts : List Token) : (read ts).rest <:+ ts := by
  unfold read
  split
  · exact skipTrivia_suffix ts
  · exact (dropEnd_suffix _).trans (collectName_suffix ts)

end NamespaceHead
end ClassLineage
