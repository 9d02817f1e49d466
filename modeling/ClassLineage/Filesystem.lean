import ClassLineage.FileError
import ClassLineage.Path

/-!
# Filesystems

What a search needs of the files that it reads, wherever they come from.

## Main definitions

* `Filesystem` — a listing and the texts of files.
* `sortPaths` — the order of a listing.
-/

namespace ClassLineage

/-- What a search needs of a filesystem: the files below a directory, and the text of
each. -/
structure Filesystem where
  /-- The files below a directory, in order. -/
  listFiles : Path → Except AccessError (List String)
  /-- The text of a file. -/
  readText : String → Except AccessError String

/-- The texts in the order of their characters. -/
def sortPaths (paths : List String) : List String := paths.mergeSort fun a b => a ≤ b

end ClassLineage
