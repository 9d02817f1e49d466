/-!
# Errors of file access

Errors come at two levels.  A system refuses an operation on a path for a reason of
its own; and a filesystem, as searches see it, says what could not be found or read.

## Main definitions

* `SystemError` — why a system refuses an operation.
* `FileError` — what a filesystem says, with its `message`, `path` and `operation`.
* `FileErrorKind` — the kinds of these errors, some of which cover others.
* `AccessError` — either of the two.
-/

namespace ClassLineage

/-- Why a system refuses an operation on a path. -/
inductive SystemError
  /-- Nothing is there. -/
  | noEntry
  /-- What should be a directory is none. -/
  | notDirectory
  /-- What should be a file is a directory. -/
  | isDirectory
  /-- Something is there already. -/
  | alreadyExists
  /-- A name is longer than the system allows. -/
  | nameTooLong
  /-- Links lead on and on. -/
  | tooManyLinks
  /-- A link stands where none may. -/
  | isLink
  /-- The path holds a character that no path may hold. -/
  | nullCharacter
deriving Repr, DecidableEq

/-- The error tells only that nothing is to be found at the path. -/
def SystemError.isAbsence : SystemError → Bool
  | noEntry => true
  | notDirectory => true
  | tooManyLinks => true
  | nullCharacter => true
  | _ => false

/-- The kinds of errors of a filesystem. -/
inductive FileErrorKind
  /-- Any error. -/
  | general
  /-- A directory is not found. -/
  | directoryNotFound
  /-- A file is not found. -/
  | fileNotFound
  /-- A file or a directory cannot be read. -/
  | unreadable
  /-- It may not be read. -/
  | permissionDenied
deriving Repr, DecidableEq

namespace FileErrorKind

/-- All the kinds. -/
def all : List FileErrorKind :=
  [general, directoryNotFound, fileNotFound, unreadable, permissionDenied]

/-- Every error of the second kind is one of the first. -/
def covers : FileErrorKind → FileErrorKind → Bool
  | general, _ => true
  | unreadable, permissionDenied => true
  | broad, narrow => broad == narrow

theorem covers_refl (k : FileErrorKind) : k.covers k = true := by cases k <;> rfl

theorem covers_trans {a b c : FileErrorKind} (hab : a.covers b = true) (hbc : b.covers c = true) :
    a.covers c = true := by
  cases a <;> cases b <;> cases c <;> simp_all [covers]

end FileErrorKind

/-- What a filesystem says of a path. -/
inductive FileError
  /-- Some error. -/
  | general (message path : String)
  /-- The directory is not found. -/
  | directoryNotFound (path : String)
  /-- The file is not found. -/
  | fileNotFound (path : String)
  /-- The path cannot be read. -/
  | unreadable (message path : String)
  /-- The path may not be read; the operation is what was tried. -/
  | permissionDenied (path operation : String)
deriving Repr, DecidableEq

namespace FileError

/-- The kind of an error. -/
def kind : FileError → FileErrorKind
  | general .. => .general
  | directoryNotFound _ => .directoryNotFound
  | fileNotFound _ => .fileNotFound
  | unreadable .. => .unreadable
  | permissionDenied .. => .permissionDenied

/-- The path that an error is about. -/
def path : FileError → String
  | general _ path => path
  | directoryNotFound path => path
  | fileNotFound path => path
  | unreadable _ path => path
  | permissionDenied path _ => path

/-- The operation that an error tells, if it tells one. -/
def operation : FileError → Option String
  | permissionDenied _ operation => some operation
  | _ => none

/-- What an error says. -/
def message : FileError → String
  | general message _ => message
  | directoryNotFound path => "Directory not found: " ++ path
  | fileNotFound path => "File not found: " ++ path
  | unreadable message _ => message
  | permissionDenied path operation =>
    "Permission denied: cannot " ++ operation ++ " \x27" ++ path ++ "\x27"

/-- The error of a file that cannot be read. -/
def unreadableFile (path : String) : FileError :=
  unreadable ("Unable to read file: " ++ path) path

/-- The error of a directory whose files cannot be listed. -/
def unlistable (path : String) : FileError :=
  unreadable ("Unable to list directory: " ++ path) path

/-- The error only tells that the file has gone. -/
def isVanished (e : FileError) : Bool := FileErrorKind.fileNotFound.covers e.kind

end FileError

/-- What an access to files may end in. -/
inductive AccessError
  /-- What the filesystem says. -/
  | file (e : FileError)
  /-- What the system says, where the filesystem says nothing of its own. -/
  | system (e : SystemError)
deriving Repr, DecidableEq

end ClassLineage
