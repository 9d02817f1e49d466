import ClassLineage.Disk

/-!
# Changing a disk

## Main definitions

* `DiskNode.set` — a tree with the node at a place replaced, added or taken away.
* `Disk.writeFile`, `Disk.makeDirectories`, `Disk.makeLink` — what adds to a disk.
* `Disk.removeFile`, `Disk.removeTree` — what takes from it.
* `Disk.ofFiles` — the disk that holds given files.
* `Disk.newFiles` — the files of a disk that another lacks.
-/

namespace ClassLineage
namespace DiskNode

/-- The entries without the one of a name. -/
def eraseEntry (name : String) (entries : List (String × DiskNode)) : List (String × DiskNode) :=
  entries.filter fun e => e.1 ≠ name

/-- The tree with `new` at a place, or with nothing there.  The directory that the
place is in must be there. -/
def set (new : Option DiskNode) : Place → DiskNode → DiskNode
  | [], node => new.getD node
  | [name], directory entries =>
    match new with
    | some node => directory (Entries.put name node entries)
    | none => directory (eraseEntry name entries)
  | name :: place, directory entries =>
    match Entries.find? name entries with
    | some node => directory (Entries.put name (set new place node) entries)
    | none => directory entries
  | _ :: _, node => node

end DiskNode

namespace Disk

/-- The disk with `new` at a place, or with nothing there. -/
def setAt (new : Option DiskNode) (place : Place) (d : Disk) : Disk :=
  { d with root := d.root.set new place }

/-- The disk with bytes in the file at a path, which is made if it is not there. -/
def writeFile (p : Path) (bytes : List UInt8) (d : Disk) : Except SystemError Disk := do
  match ← d.followText p.toText with
  | .absent place => return d.setAt (some (.file bytes)) place
  | .present place =>
    match d.root.at? place with
    | some (.directory _) => .error .isDirectory
    | _ => return d.setAt (some (.file bytes)) place

/-- The path without its last part. -/
def parent (p : Path) : Path := ⟨p.lead, p.parts.dropLast⟩

/-- The place of the last part of a path, which is not followed if it is a link. -/
def placeOf (p : Path) (d : Disk) : Except SystemError Place := do
  match p.parts.getLast? with
  | none => .error .isDirectory
  | some name =>
    match ← d.followText (parent p).toText with
    | .absent _ => .error .noEntry
    | .present place =>
      match d.root.at? place with
      | some (.directory _) =>
        if maxNameBytes < name.utf8ByteSize then .error .nameTooLong else return place ++ [name]
      | _ => .error .notDirectory

/-- The disk with a directory at a path, where nothing or a directory may be. -/
def makeDirectory (p : Path) (isLast : Bool) (d : Disk) : Except SystemError Disk := do
  if ← d.isDirectory p then return d
  else
    let place ← d.placeOf p
    match d.root.at? place with
    | none => return d.setAt (some (.directory [])) place
    | some _ => .error (if isLast then .alreadyExists else .notDirectory)

/-- The disk with directories at a path and at those that lead to it. -/
def makeDirectories (p : Path) (d : Disk) : Except SystemError Disk :=
  (List.range p.parts.length).foldlM
    (fun d i => d.makeDirectory ⟨p.lead, p.parts.take (i + 1)⟩ (i + 1 = p.parts.length)) d

/-- The disk with bytes in the file at a path, and with the directories that lead to
it. -/
def putFile (p : Path) (bytes : List UInt8) (d : Disk) : Except SystemError Disk := do
  (← d.makeDirectories (parent p)).writeFile p bytes

/-- The disk with a link at a path, where nothing may be. -/
def makeLink (target : String) (p : Path) (d : Disk) : Except SystemError Disk := do
  let place ← d.placeOf p
  match d.root.at? place with
  | some _ => .error .alreadyExists
  | none => return d.setAt (some (.link target)) place

/-- The disk without the file or link at a path. -/
def removeFile (p : Path) (d : Disk) : Except SystemError Disk := do
  let place ← d.placeOf p
  match d.root.at? place with
  | some (.directory _) => .error .isDirectory
  | some _ => return d.setAt none place
  | none => .error .noEntry

/-- The disk without the directory at a path and all that is in it. -/
def removeTree (p : Path) (d : Disk) : Except SystemError Disk := do
  let place ← d.placeOf p
  match d.root.at? place with
  | some (.directory _) => return d.setAt none place
  | some (.file _) => .error .notDirectory
  | some (.link _) => .error .isLink
  | none => .error .noEntry

/-- A disk whose one directory, from which relative paths start, is empty. -/
def empty : Disk := ⟨.directory [("work", .directory [])], ["work"]⟩

/-- The disk that holds given files, by their paths. -/
def ofFiles (files : List (String × List UInt8)) : Except SystemError Disk :=
  files.foldlM (fun d f => d.putFile (Path.ofText f.1) f.2) empty

/-- The files below the place that relative paths start from, each with its bytes. -/
def filesHere (d : Disk) : Entries (List UInt8) :=
  match d.root.at? d.here with
  | none => []
  | some node => node.places.filterMap fun place =>
      ((node.at? place).bind (·.bytes?)).map fun bytes => (String.intercalate "/" place, bytes)

/-- The files of a disk that another one lacks. -/
def newFiles (before after : Disk) : Entries (List UInt8) :=
  after.filesHere.filter fun f => !(before.filesHere.any fun g => g.1 = f.1)

end Disk
end ClassLineage
