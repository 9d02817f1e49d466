import ClassLineage.Entries
import ClassLineage.FileError
import ClassLineage.Path

/-!
# Disks

A disk is a tree of directories, whose entries are files, links and directories again,
together with the place that relative paths start from.  A path is followed part by
part: two points lead to the directory above, and a link is replaced by its target.

## Main definitions

* `DiskNode`, `Disk` — a tree, and a disk.
* `DiskNode.at?` — the node at a place.
* `Disk.follow` — where the parts of a path lead.
* `Disk.find` — the node that a path leads to.
* `Disk.existsAt`, `Disk.isFile`, `Disk.isDirectory` — what is at a path, if anything.
-/

namespace ClassLineage

/-- What stands at a place of a disk. -/
inductive DiskNode
  /-- A file with its bytes. -/
  | file (bytes : List UInt8)
  /-- A link to another path. -/
  | link (target : String)
  /-- A directory with its entries. -/
  | directory (entries : List (String × DiskNode))

/-- A place of a disk: the names that lead to it from the root. -/
abbrev Place := List String

namespace DiskNode

/-- The node at a place below this one. -/
def at? : Place → DiskNode → Option DiskNode
  | [], node => some node
  | name :: place, directory entries => (Entries.find? name entries).bind (at? place)
  | _ :: _, _ => none

/-- The node is a directory. -/
def isDirectory : DiskNode → Bool
  | directory _ => true
  | _ => false

/-- The bytes of a node, if it is a file. -/
def bytes? : DiskNode → Option (List UInt8)
  | file bytes => some bytes
  | _ => none

mutual

/-- The places of all nodes below this one, links not followed. -/
def places : DiskNode → List Place
  | directory entries => placesOf entries
  | _ => []

/-- The places of entries, and of all nodes below them. -/
def placesOf : List (String × DiskNode) → List Place
  | [] => []
  | (name, node) :: rest => [name] :: (places node).map (name :: ·) ++ placesOf rest

end

end DiskNode

/-- A disk. -/
structure Disk where
  /-- What stands at the root. -/
  root : DiskNode
  /-- The place that relative paths start from. -/
  here : Place

/-- Where a path leads: to a node, or to the free name of one in a directory. -/
inductive Target
  /-- A node is there. -/
  | present (place : Place)
  /-- The name is free. -/
  | absent (place : Place)
deriving Repr, DecidableEq

namespace Disk

/-- The most bytes of a name. -/
def maxNameBytes : Nat := 255

/-- The bytes that a path must stay below. -/
def maxPathBytes : Nat := 4096

/-- The most links that are followed on one path. -/
def maxLinks : Nat := 40

/-- The parts of the text of a path as the system reads it: a slash at the end asks for
a directory, as a point does. -/
def rawParts (text : String) : List String :=
  (Text.splitAll (· = '/') text).filter (· ≠ "")
    ++ if text.toList.getLast? = some '/' then ["."] else []

/-- Where the parts of a path lead from a place, if `links` links may still be
followed. -/
def follow (root : DiskNode) (links : Nat) (place : Place) (parts : List String) :
    Except SystemError Target :=
  match parts with
  | [] => .ok (.present place)
  | part :: rest =>
    match root.at? place with
    | none => .error .noEntry
    | some (.directory entries) =>
      if part = "." then follow root links place rest
      else if part = ".." then follow root links place.dropLast rest
      else if maxNameBytes < part.utf8ByteSize then .error .nameTooLong
      else match Entries.find? part entries with
        | none => if rest = [] then .ok (.absent (place ++ [part])) else .error .noEntry
        | some (.link target) =>
          match links with
          | 0 => .error .tooManyLinks
          | links + 1 =>
            follow root links (if (Path.ofText target).isAbsolute then [] else place)
              (rawParts target ++ rest)
        | some _ => follow root links (place ++ [part]) rest
    | some _ => .error .notDirectory
termination_by (links, parts.length)

/-- Where a text leads as a path. -/
def followText (d : Disk) (text : String) : Except SystemError Target :=
  if text.toList.contains '\x00' then .error .nullCharacter
  else if text = "" then .error .noEntry
  else if maxPathBytes ≤ text.utf8ByteSize then .error .nameTooLong
  else follow d.root maxLinks (if (Path.ofText text).isAbsolute then [] else d.here) (rawParts text)

/-- The node that a text leads to as a path. -/
def findText (d : Disk) (text : String) : Except SystemError DiskNode := do
  match ← d.followText text with
  | .present place =>
    match d.root.at? place with
    | some node => return node
    | none => .error .noEntry
  | .absent _ => .error .noEntry

/-- The node that a path leads to. -/
def find (d : Disk) (p : Path) : Except SystemError DiskNode := d.findText p.toText

/-- A property of the node that a path leads to; it does not hold where nothing is. -/
def test (property : DiskNode → Bool) (d : Disk) (p : Path) : Except SystemError Bool :=
  match d.find p with
  | .ok node => .ok (property node)
  | .error e => if e.isAbsence then .ok false else .error e

/-- Something is at a path. -/
def existsAt (d : Disk) (p : Path) : Except SystemError Bool := d.test (fun _ => true) p

/-- A file is at a path. -/
def isFile (d : Disk) (p : Path) : Except SystemError Bool := d.test (·.bytes?.isSome) p

/-- A directory is at a path. -/
def isDirectory (d : Disk) (p : Path) : Except SystemError Bool := d.test (·.isDirectory) p

/-- The bytes of a node, which must be a file. -/
def bytesOf : DiskNode → Except SystemError (List UInt8)
  | .file bytes => .ok bytes
  | _ => .error .isDirectory

/-- The bytes of the file that a text leads to as a path. -/
def readRaw (d : Disk) (text : String) : Except SystemError (List UInt8) := do
  bytesOf (← d.findText text)

/-- The bytes of the file at a path. -/
def readBytes (d : Disk) (p : Path) : Except SystemError (List UInt8) := d.readRaw p.toText

end Disk
end ClassLineage
