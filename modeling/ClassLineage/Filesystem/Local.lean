import ClassLineage.Disk
import ClassLineage.Filesystem
import ClassLineage.Text.Utf8

/-!
# Files of a disk

A disk as searches see it.  Relative paths may be taken below a base path; files are
listed in order, and read as text.  A disk keeps no permissions: all that is on it may be
listed and read, so that no access to it is denied.

## Main definitions

* `LocalFiles` — a disk with a base path.
* `LocalFiles.listFiles`, `LocalFiles.readText` — its listing and its reading.
* `LocalFiles.filesystem` — it as a filesystem.
-/

namespace ClassLineage

/-- A disk with a base path, below which relative paths are taken. -/
structure LocalFiles where
  /-- The disk. -/
  disk : Disk
  /-- The base path, if there is one. -/
  base : Option Path

mutual

/-- The paths of all nodes below one, whose path is given; links are not followed. -/
def DiskNode.paths (p : Path) : DiskNode → List Path
  | .directory entries => DiskNode.pathsOf p entries
  | _ => []

/-- The paths of entries, and of all nodes below them. -/
def DiskNode.pathsOf (p : Path) : List (String × DiskNode) → List Path
  | [] => []
  | (name, node) :: rest =>
    p.child name :: DiskNode.paths (p.child name) node ++ DiskNode.pathsOf p rest

end

/-- The paths of the entries of a directory, whose path is given. -/
def DiskNode.children (p : Path) : DiskNode → List Path
  | .directory entries => entries.map fun e => p.child e.1
  | _ => []

namespace LocalFiles

/-- Where a path leads, the base path being taken into account. -/
def path (files : LocalFiles) (p : Path) : Path :=
  match files.base with
  | some base => base.join p
  | none => p

/-- What the system said, as an error of access. -/
def ofSystem {α : Type} (r : Except SystemError α) : Except AccessError α := r.mapError .system

/-- The files below a directory, in order: those in it, or all below it.  Where a system keeps
permissions, it is asked at first whether the directory may be read and entered, and a denial there
or while files are listed is `FileError.permissionDenied`; on a `Disk`, which keeps none, neither
can happen. -/
def listFiles (recursive : Bool) (files : LocalFiles) (directory : Path) :
    Except AccessError (List String) := do
  let root := files.path directory
  if ← ofSystem (files.disk.isDirectory root) then
    let node ← ofSystem (files.disk.find root)
    let candidates := if recursive then node.paths root else node.children root
    match candidates.filterM files.disk.isFile with
    | .ok found => return sortPaths (found.map Path.toText)
    | .error _ => .error (.file (.unlistable root.toText))
  else .error (.file (.directoryNotFound root.toText))

/-- The bytes of a file.  A file that may not be read would be a `FileError.permissionDenied`; on
a `Disk`, which keeps no permissions, there is none. -/
def readBytes (files : LocalFiles) (p : Path) : Except AccessError (List UInt8) :=
  let full := files.path p
  match files.disk.readBytes full with
  | .ok bytes => .ok bytes
  | .error .noEntry => .error (.file (.fileNotFound full.toText))
  | .error .nullCharacter => .error (.system .nullCharacter)
  | .error _ => .error (.file (.unreadableFile full.toText))

/-- The text of a file. -/
def readText (files : LocalFiles) (p : Path) : Except AccessError String :=
  Text.Utf8.decode <$> files.readBytes p

/-- The files of a disk as searches see them. -/
def filesystem (files : LocalFiles) : Filesystem where
  listFiles := files.listFiles true
  readText path := files.readText (Path.ofText path)

end LocalFiles
end ClassLineage
