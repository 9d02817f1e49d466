import ClassLineage.Declaration
import ClassLineage.Declaration.Outline
import ClassLineage.Import

/-!
# Scanning for declarations

The declarations of a file: its outlines, with every name resolved by the imports of
the file and by the namespace that the declaration belongs to.

## Main definitions

* `Outline.resolve` — the declaration that an outline makes.
* `Declaration.scanWith` — the declarations of a file, given its imports.
* `Declaration.scan` — the declarations of a file.
-/

namespace ClassLineage

/-- The declaration that an outline makes in the file `path` with these imports. -/
def Outline.resolve (imports : ImportTable) (path : String) (o : Outline) : Declaration where
  name := Name.qualify o.shortName o.space
  path := path
  space := o.space
  shortName := o.shortName
  kind := o.kind.word
  parent := o.parent.bind (Name.resolve imports o.space)
  interfaces := o.interfaces.filterMap (Name.resolve imports o.space)
  traits := o.traits.filterMap (Name.resolve imports o.space)

namespace Declaration

/-- The declarations of a file, in order, its names resolved by `imports`. -/
def scanWith (imports : ImportTable) (path : String) (ts : List Token) : List Declaration :=
  (Outline.readAll ts).map (·.resolve imports path)

/-- The declarations of a file, in order. -/
def scan (path : String) (ts : List Token) : List Declaration :=
  scanWith (.ofTokens ts) path ts

end Declaration
end ClassLineage
