import ClassLineage.Config
import ClassLineage.Declaration.Scan
import ClassLineage.Filesystem
import ClassLineage.Php.Lexer

/-!
# Searches

A search scans the files below a directory and picks the declarations that refer to a
given name.  A file counts by its suffix, whatever its case, unless it lies in an
excluded directory below the one searched; a file that has gone since the listing
counts for nothing.

## Main definitions

* `Search.keeps` — a listed file counts.
* `Search.walk` — the files that count.
* `Tokenizer` — what makes tokens of a source.
* `Search` — a search: a filesystem with a configuration, and what makes tokens of the files.
* `Search.scanFile`, `Search.scanDirectory` — the declarations of a file, and of all.
* `Search.find` — the declarations that refer to a name.
-/

namespace ClassLineage

/-- What makes tokens of a source. -/
abbrev Tokenizer := String → List Token

/-- A filesystem with a configuration.  Nothing is asked of what makes tokens of the files; it is
that of the program unless another one is told. -/
structure Search (tokens : Tokenizer := Php.tokens) where
  /-- Where files come from. -/
  files : Filesystem
  /-- Which files count, and how they are read. -/
  config : Config

namespace Search

variable {tokens : Tokenizer}

/-- The directories on the way to a listed path: those below the directory searched, or
all of them if the path does not lie below it. -/
def directoriesOf (directory listed : Path) : List String :=
  ((listed.relativeTo? directory).getD listed.fullParts).dropLast

/-- A listed file counts: its suffix is among the extensions, and no directory on the
way to it is excluded. -/
def keeps (directory : Path) (excludes extensions : List String) (path : String) : Bool :=
  let listed := Path.ofText path
  let counted := if extensions.isEmpty then Config.defaultExtensions else extensions
  let suffixes := counted.map Text.lower
  suffixes.contains (Text.lower listed.suffix)
    && !(directoriesOf directory listed).any excludes.contains

/-- The files below a directory that count, in the order in which they are listed. -/
def walk (files : Filesystem) (directory : Path) (excludes extensions : List String) :
    Except AccessError (List String) := do
  return (← files.listFiles directory).filter (keeps directory excludes extensions)

/-- The files below a directory that the search reads. -/
def phpFiles (s : Search tokens) (directory : Path) : Except AccessError (List String) :=
  walk s.files directory s.config.excludes s.config.extensions

/-- The declarations of a source, as of the file `path`. -/
def scanSource (tokens : Tokenizer) (source path : String) : List Declaration :=
  Declaration.scan path (tokens source)

/-- The declarations of a file; none if it has gone. -/
def scanFile (s : Search tokens) (path : String) : Except AccessError (List Declaration) :=
  match s.files.readText path with
  | .ok source => .ok (scanSource tokens source path)
  | .error (.file e) => if e.isVanished then .ok [] else .error (.file e)
  | .error e => .error e

/-! ### Several files at a time -/

/-- What the tasks of a pool have given so far, each under its number. -/
abbrev PoolTable (α : Type) := List (Nat × α)

/-- The table after tasks have been completed in an order. -/
def complete {α : Type} (task : Nat → Option α) (order : List Nat) : PoolTable α :=
  order.filterMap fun i => (task i).map (i, ·)

/-- What the first `n` tasks have given, in the order of their numbers. -/
def handBack {α : Type} (n : Nat) (table : PoolTable α) : List α :=
  (List.range n).filterMap fun i => (table.find? (·.1 = i)).map (·.2)

/-- The declarations of files that workers read at the same time, completing them in an
order; what they give is handed back in the order of the files. -/
def scanPooled (s : Search tokens) (order : List Nat) (paths : List String) :
    List (Except AccessError (List Declaration)) :=
  handBack paths.length (complete (fun i => paths[i]?.map s.scanFile) order)

/-- The files are read several at a time. -/
def isPooled (s : Search tokens) (paths : List String) : Bool :=
  1 < s.config.workers && 1 < paths.length

/-- The declarations of all files below a directory that count, in order, when workers
complete a number of files in the order that `schedule` tells. -/
def scanDirectoryBy (schedule : Nat → List Nat) (s : Search tokens) (directory : Path) :
    Except AccessError (List Declaration) := do
  let paths ← s.phpFiles directory
  let perFile ←
    if s.isPooled paths then (s.scanPooled (schedule paths.length) paths).mapM id
    else paths.mapM s.scanFile
  return perFile.flatten

/-- The declarations of all files below a directory that count, in order. -/
def scanDirectory (s : Search tokens) (directory : Path) : Except AccessError (List Declaration) :=
  s.scanDirectoryBy List.range directory

/-- The declaration refers to a name by a relation. -/
def refersTo (target : String) (relation : Relation) (d : Declaration) : Bool :=
  (d.related relation).any fun name => Name.normalize name = Name.normalize target

/-- The declarations below a directory that refer to a name by a relation, in order. -/
def find (s : Search tokens) (directory : Path) (target : String) (relation : Relation) :
    Except AccessError (List Declaration) := do
  return (← s.scanDirectory directory).filter (refersTo target relation)

/-- A search that nothing is told about. -/
def standard (files : Filesystem) : Search := ⟨files, .standard⟩

end Search
end ClassLineage
