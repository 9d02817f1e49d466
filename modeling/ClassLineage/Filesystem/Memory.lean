import ClassLineage.Entries
import ClassLineage.Filesystem

/-!
# Files in memory

A filesystem that holds texts by their paths, and for some paths an error in place of
the text.

## Main definitions

* `MemoryFiles` — the files.
* `MemoryFiles.filesystem` — they as a filesystem.
-/

namespace ClassLineage

/-- Files by their paths: the text of each, or what reading it ends in. -/
abbrev MemoryFiles := Entries (Except FileError String)

namespace MemoryFiles

/-- A path is listed below a directory: its text goes on after that of the directory
and a slash.  Every path is listed below the place where one is. -/
def isBelow (directory : Path) (path : String) : Bool :=
  directory = ⟨.relative, []⟩ || (directory.toText ++ "/").toList.isPrefixOf path.toList

/-- The files below a directory, in order. -/
def listFiles (files : MemoryFiles) (directory : Path) : Except AccessError (List String) :=
  let found := files.keys.filter (isBelow directory)
  if found = [] ∧ directory ≠ ⟨.relative, []⟩ then
    .error (.file (.directoryNotFound directory.toText))
  else .ok (sortPaths found)

/-- The text of a file. -/
def readText (files : MemoryFiles) (path : String) : Except AccessError String :=
  ((files.find? path).getD (.error (.fileNotFound path))).mapError .file

/-- The files as searches see them. -/
def filesystem (files : MemoryFiles) : Filesystem := ⟨files.listFiles, files.readText⟩

end MemoryFiles
end ClassLineage
