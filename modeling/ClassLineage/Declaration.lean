import ClassLineage.Json
import ClassLineage.Text.Quoted

/-!
# Declarations

What is known of a class or an interface that a file declares: its names, where it
stands, and the full names of what it extends, implements and uses.

## Main definitions

* `Relation` — the ways in which a declaration refers to another.
* `Declaration` — the record of a declaration.
* `Declaration.related` — the names that it refers to in one way.
* `Declaration.toJson` — the record as a JSON value.
-/

namespace ClassLineage

/-- The ways in which a declaration refers to another. -/
inductive Relation
  /-- The other is its parent. -/
  | extending
  /-- The other is an interface of it. -/
  | implementing
  /-- The other is a trait of it. -/
  | usingTrait
deriving Repr, DecidableEq

namespace Relation

/-- All the relations. -/
def all : List Relation := [extending, implementing, usingTrait]

/-- The word that a search calls the relation by. -/
def word : Relation → String
  | extending => "extends"
  | implementing => "implements"
  | usingTrait => "traits"

/-- The relation that a word calls, if any. -/
def ofWord? (word : String) : Option Relation := all.find? (·.word == word)

@[simp] theorem ofWord?_word (r : Relation) : ofWord? r.word = some r := by cases r <;> decide

end Relation

/-- A search was asked for a relation that there is not. -/
structure UnknownRelation where
  /-- The word asked for. -/
  word : String
deriving Repr, DecidableEq

/-- What is said of an unknown relation. -/
def UnknownRelation.message (e : UnknownRelation) : String :=
  Text.quoted e.word ++ " is not a valid Relation"

/-- The record of a declaration. -/
structure Declaration where
  /-- Its full name. -/
  name : String
  /-- The file that declares it. -/
  path : String
  /-- The namespace that it belongs to, empty for the global one. -/
  space : String
  /-- The name that it is declared by. -/
  shortName : String
  /-- What it is: `class` or `interface`. -/
  kind : String
  /-- The full name of its parent. -/
  parent : Option String
  /-- The full names of its interfaces. -/
  interfaces : List String
  /-- The full names of its traits. -/
  traits : List String
deriving Repr, DecidableEq

namespace Declaration

/-- The names that the declaration refers to by a relation. -/
def related (d : Declaration) : Relation → List String
  | .extending => d.parent.toList
  | .implementing => d.interfaces
  | .usingTrait => d.traits

/-- The record as a JSON value. -/
def toJson (d : Declaration) : Json :=
  .obj [("class", .str d.name), ("file", .str d.path), ("namespace", .str d.space),
    ("short_name", .str d.shortName), ("kind", .str d.kind), ("extends", .optText d.parent),
    ("implements", .texts d.interfaces), ("traits", .texts d.traits)]

end Declaration
end ClassLineage
