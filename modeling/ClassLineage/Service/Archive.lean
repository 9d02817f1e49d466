import ClassLineage.Disk.Edit
import ClassLineage.Text.Utf8

/-!
# Archives

What a client uploads: bytes, or an archive as the list of its entries.  To make entries of
bytes is the part of a reader, of which nothing is asked: it may give any entries, with contents
that can be read or not, or give up.  The reader at hand knows a single archive, the one without
entries.

## Main definitions

* `ArchiveEntry` — an entry: a file, or a directory by the slash at its end.
* `ArchiveError` — why an archive, or the content of an entry, is not read.
* `PackedEntry` — an entry whose content has still to be read.
* `ArchiveReader`, `Archive.readEmpty` — what makes entries of bytes, and the reader at hand.
* `Archive.entryPath` — where an entry is unpacked.
* `Archive.unpack` — a disk with the entries unpacked on it.
* `Archive.topDirectory` — the directory that the files of an unpacked archive are in.
-/

namespace ClassLineage

/-- An entry of an archive. -/
structure ArchiveEntry where
  /-- Its name, ended by a slash if it is a directory. -/
  name : String
  /-- The bytes of the file, none for a directory. -/
  bytes : List UInt8
deriving Repr, DecidableEq

/-- What a client uploads. -/
inductive UploadContent
  /-- An archive of these entries. -/
  | entries (l : List ArchiveEntry)
  /-- Bytes as they came. -/
  | raw (bytes : List UInt8)
deriving Repr, DecidableEq

/-- Why an archive is not read, or the content of one of its entries. -/
inductive ArchiveError (ε : Type)
  /-- It is no archive, or one that is damaged. -/
  | invalid
  /-- Its reader has another reason: it is encrypted, say, or packed in a way not known. -/
  | other (e : ε)
deriving Repr, DecidableEq

/-- What comes of reading the content of an entry. -/
inductive EntryContent (ε : Type)
  /-- It can be read as a whole. -/
  | whole (bytes : List UInt8)
  /-- It cannot be opened. -/
  | closed (e : ArchiveError ε)
  /-- It can be opened, but breaks off while it is read. -/
  | broken (e : ArchiveError ε)
deriving Repr, DecidableEq

/-- An entry of an archive, of which the content has still to be read. -/
structure PackedEntry (ε : Type) where
  /-- Its name, ended by a slash if it is a directory. -/
  name : String
  /-- What comes of reading it; of no account for a directory. -/
  content : EntryContent ε
deriving Repr, DecidableEq

/-- What makes the entries of an archive from its bytes, or gives up.  Entries come in order.  Where
several have one name, each has the content that is read under this name; the content of one without
a name cannot be opened. -/
abbrev ArchiveReader (ε : Type) := List UInt8 → Except (ArchiveError ε) (List (PackedEntry ε))

/-- Why an archive is not unpacked. -/
inductive UnpackError (ε : Type)
  /-- The system refuses an operation. -/
  | system (e : SystemError)
  /-- The content of an entry is not read. -/
  | archive (e : ArchiveError ε)
deriving Repr, DecidableEq

/-- The entry, with a content that can be read. -/
def ArchiveEntry.packed {ε : Type} (e : ArchiveEntry) : PackedEntry ε := ⟨e.name, .whole e.bytes⟩

namespace Archive

variable {ε : Type}

/-- The mark of the record that ends an archive. -/
def endMark : List UInt8 := [0x50, 0x4B, 0x05, 0x06]

/-- The length of that record without its comment. -/
def endLength : Nat := 22

/-- The most bytes that follow the record. -/
def maxComment : Nat := 0x10000

/-- The record tells that the directory of the archive has no bytes. -/
def hasEmptyDirectory (record : List UInt8) : Bool :=
  ((record.drop 12).take 4).all (· == 0)

/-- The last record in a list of bytes, with what follows it. -/
def lastRecord? : List UInt8 → Option (List UInt8)
  | [] => none
  | b :: bs =>
    match lastRecord? bs with
    | some record => some record
    | none => if endMark.isPrefixOf (b :: bs) then some (b :: bs) else none

/-- The record that ends an archive: the last bytes, if they are one without a comment;
otherwise the last one near the end. -/
def endRecord? (bytes : List UInt8) : Option (List UInt8) :=
  let last := bytes.drop (bytes.length - endLength)
  if endMark.isPrefixOf last && last.drop (endLength - 2) == [0, 0] then some last
  else lastRecord? (bytes.drop (bytes.length - endLength - maxComment))

/-- Bytes are an archive without entries. -/
def isEmptyArchive (bytes : List UInt8) : Bool :=
  endLength ≤ bytes.length
    && (endRecord? bytes).any fun record => endLength ≤ record.length && hasEmptyDirectory record

/-- The reader that knows a single archive, the one without entries: to it, all else is none. -/
def readEmpty : ArchiveReader ε := fun bytes =>
  if isEmptyArchive bytes then .ok [] else .error .invalid

/-- A part of an entry's name leads further down. -/
def isDescent (part : String) : Bool := part != "" && part != "." && part != ".."

/-- The name of an entry up to the first null character. -/
def cutName (name : String) : String := String.ofList (name.toList.takeWhile (· ≠ '\x00'))

/-- The name is that of a directory. -/
def isDirectoryName (name : String) : Bool := name.toList.getLast? == some '/'

/-- Where an entry of this name is unpacked below `root`: never above it. -/
def entryPath (root : Path) (name : String) : Path :=
  ⟨root.lead, root.parts ++ (Text.splitAll (· = '/') name).filter isDescent⟩

/-- The disk with an entry unpacked.  Directories on the way to it are made first.  The content of
a file is opened before the file is, and read only then. -/
def unpackEntry (root : Path) (d : Disk) (e : PackedEntry ε) : Except (UnpackError ε) Disk := do
  let system (r : Except SystemError Disk) : Except (UnpackError ε) Disk := r.mapError .system
  let name := cutName e.name
  let p := entryPath root name
  let above := Disk.parent p
  let d ← match d.existsAt above with
    | .ok true => pure d
    | _ => system (d.makeDirectories above)
  if isDirectoryName name then system (d.makeDirectory p true)
  else match e.content with
    | .whole bytes => system (d.writeFile p bytes)
    | .closed e => .error (.archive e)
    | .broken e => do
      let _ ← system (d.writeFile p [])
      .error (.archive e)

/-- The disk with entries unpacked one after the other. -/
def unpack (root : Path) (entries : List (PackedEntry ε)) (d : Disk) :
    Except (UnpackError ε) Disk :=
  entries.foldlM (unpackEntry root) d

/-- The directory that the files of an unpacked archive are in: the only entry of the
archive if it is a directory, else the archive itself. -/
def topDirectory (root : Path) (d : Disk) : Except SystemError Path := do
  match ← d.find root with
  | .directory [(name, .directory _)] => return root.child name
  | .directory _ => return root
  | _ => .error .notDirectory

end Archive
end ClassLineage
