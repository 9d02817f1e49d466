import ClassLineage.CommandLine.Arguments
import ClassLineage.Disk.Edit
import ClassLineage.Filesystem.Local
import ClassLineage.Hierarchy.Saved
import ClassLineage.Search

/-!
# The command line

Two commands work on the files below a directory: one lists the declarations that refer
to a name, the other saves the hierarchy of all declarations.

## Main definitions

* `Command`, `Command.parse` — the commands, and the command that arguments give.
* `Effect`, `Command.perform` — what a command does.
* `Report`, `Command.run` — what a command leaves behind on a disk.
* `CommandLine.run` — the arguments of a call on a disk.
-/

namespace ClassLineage

/-- A command. -/
inductive Command
  /-- Lists the declarations below a directory that refer to a name. -/
  | find (root target : String) (relation : Relation) (asJson : Bool)
  /-- Saves the hierarchy of the declarations below a directory. -/
  | graph (root output : String)
deriving Repr, DecidableEq

/-- What a command does. -/
structure Effect where
  /-- What it prints. -/
  printed : String
  /-- The file that it saves, and the text of the file. -/
  saved : Option (String × String)
deriving Repr, DecidableEq

/-- What a run leaves behind. -/
structure Report where
  /-- The code that it ends with. -/
  exitCode : Nat
  /-- What it prints. -/
  printed : String
  /-- What it complains about. -/
  complaint : Option String
  /-- The disk after it. -/
  disk : Disk

/-- Why a run breaks off. -/
inductive CommandFailure
  /-- The configuration holds no number where one must be. -/
  | configuration (e : Text.IntegerError)
  /-- The system refuses an operation. -/
  | system (e : SystemError)
deriving Repr, DecidableEq

namespace CommandLine

/-- The names by which help is asked for. -/
def helpOptions : Entries OptionAction := [("-h", .help), ("--help", .help)]

/-- What stands before the name of a command. -/
def mainGrammar : Grammar := ⟨helpOptions ++ [("--verbose", .flag "verbose")], true⟩

/-- The options for finding declarations. -/
def findGrammar : Grammar :=
  ⟨helpOptions ++ [("--root", .value "root" []), ("--target", .value "target" []),
    ("--relation", .value "relation" (Relation.all.map (·.word))),
    ("--json", .flag "json")], false⟩

/-- The options for saving the hierarchy. -/
def graphGrammar : Grammar :=
  ⟨helpOptions ++ [("--root", .value "root" []), ("--output", .value "output" [])], false⟩

/-- The settings that the arguments of a command make. -/
def settings (g : Grammar) (args : List String) : Except Stop Reading := do
  g.read .start (← g.classifyAll args)

/-- A setting that must be made. -/
def required (key : String) (r : Reading) : Except Stop String :=
  match r.settings.find? key with
  | some value => .ok value
  | none => .error .misuse

/-- What the arguments after the name of a command make of it.  Arguments that nobody
understands are complained about in the end. -/
def finish (isStrange : Bool) (r : Reading) (command : Command) : Except Stop Command :=
  if isStrange || r.hasStrangers then .error .misuse else .ok command

end CommandLine

namespace Command

open CommandLine

/-- The file that a hierarchy is saved to unless another one is told. -/
def defaultOutput : String := "class_graph.json"

/-- The command that arguments give. -/
def parse (args : List String) : Except Stop Command := do
  let top ← settings mainGrammar args
  match top.subcommand with
  | some ("find", rest) =>
    let r ← settings findGrammar rest
    let root ← required "root" r
    let target ← required "target" r
    let relation := ((r.settings.find? "relation").bind Relation.ofWord?).getD .extending
    finish top.hasStrangers r (.find root target relation (r.settings.find? "json").isSome)
  | some ("graph", rest) =>
    let r ← settings graphGrammar rest
    let root ← required "root" r
    finish top.hasStrangers r (.graph root ((r.settings.find? "output").getD defaultOutput))
  | _ => .error .misuse

/-- The line for a declaration: its name and its file. -/
def line (d : Declaration) : String := d.name ++ "\t" ++ d.path ++ "\n"

/-- What is printed of the declarations found. -/
def printFound (asJson : Bool) (ds : List Declaration) : String :=
  if asJson then (Json.arr (ds.map (·.toJson))).render ++ "\n" else String.join (ds.map line)

/-- What is printed of a hierarchy: how many nodes and edges it has. -/
def printCounts (g : Hierarchy) : String :=
  toString g.nodes.length ++ " " ++ toString g.edges.length ++ "\n"

/-- The report of a run that ends well. -/
def success (disk : Disk) (printed : String) : Report := ⟨0, printed, none, disk⟩

/-- What becomes of an access that failed: the filesystem's word is the complaint. -/
def failed (disk : Disk) : AccessError → Except CommandFailure Report
  | .file e => .ok ⟨1, "", some e.message, disk⟩
  | .system e => .error (.system e)

/-- What a command does with what its search finds.  A hierarchy is not saved where the
name of the file is empty. -/
def perform {tokens : Tokenizer} (search : Search tokens) : Command → Except AccessError Effect
  | find root target relation asJson => do
    return ⟨printFound asJson (← search.find (Path.ofText root) target relation), none⟩
  | graph root output => do
    let g := Hierarchy.ofDeclarations (← search.scanDirectory (Path.ofText root))
    return ⟨printCounts g, if output = "" then none else some (output, g.save)⟩

/-- The disk after an effect. -/
def apply (effect : Effect) (disk : Disk) : Except SystemError Disk :=
  match effect.saved with
  | none => .ok disk
  | some (file, text) => disk.writeFile (Path.ofText file) (Text.Utf8.encode text)

/-- A command on a disk. -/
def run (config : Config) (disk : Disk) (command : Command) (tokens : Tokenizer := Php.tokens) :
    Except CommandFailure Report :=
  let search : Search tokens := ⟨LocalFiles.filesystem ⟨disk, none⟩, config⟩
  match command.perform search with
  | .error e => failed disk e
  | .ok effect =>
    match apply effect disk with
    | .ok after => .ok (success after effect.printed)
    | .error e => .error (.system e)

end Command

namespace CommandLine

/-- The code of a run whose arguments are wrong. -/
def misuseCode : Nat := 2

/-- The arguments of a call, in an environment, on a disk. -/
def run (env : Environment) (disk : Disk) (args : List String)
    (tokens : Tokenizer := Php.tokens) : Except CommandFailure Report :=
  match Command.parse args with
  | .error .help => .ok (Command.success disk "")
  | .error .misuse => .ok ⟨misuseCode, "", none, disk⟩
  | .ok command =>
    match Config.ofEnvironment env with
    | .error e => .error (.configuration e)
    | .ok config => command.run config disk tokens

end CommandLine
end ClassLineage
