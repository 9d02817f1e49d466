import ClassLineage.CommandLine

/-!
# The program

The command line on the files of the machine.  All that is decided is decided by
`ClassLineage.CommandLine`; here files are listed, read and written, and texts are
printed.
-/

open ClassLineage

namespace ClassLineage
namespace Program

/-- A directory is at a path. -/
def isDirectory (p : Path) : IO Bool := do
  try return (← ((← IO.currentDir) / p.toText).metadata).type == .dir catch _ => return false

/-- A file is at a path, or a link to one. -/
def isFile (p : Path) : IO Bool := do
  try return (← ((← IO.currentDir) / p.toText).metadata).type == .file catch _ => return false

/-- The paths of all that is below a directory; links to directories are not followed,
and directories below it that may not be read are passed over. -/
partial def pathsBelow (p : Path) : IO (Array Path) := do
  let mut found := #[]
  for entry in ← ((← IO.currentDir) / p.toText).readDir do
    let child := p.child entry.fileName
    found := found.push child
    if (← ((← IO.currentDir) / child.toText).symlinkMetadata).type == .dir then
      let more ← try pathsBelow child catch
        | .permissionDenied .. => pure #[]
        | e => throw e
      found := found ++ more
  return found

/-- The files below a directory, in order. -/
def listFiles (root : Path) : IO (Except AccessError (List String)) := do
  if ← isDirectory root then
    try
      let files ← (← pathsBelow root).filterM isFile
      return .ok (sortPaths (files.toList.map Path.toText))
    catch
      | .permissionDenied .. => return .error (.file (.permissionDenied root.toText "read"))
      | _ => return .error (.file (.unlistable root.toText))
  else return .error (.file (.directoryNotFound root.toText))

/-- The text of a file. -/
def readText (path : String) : IO (Except AccessError String) := do
  try
    let bytes ← IO.FS.readBinFile ((← IO.currentDir) / path)
    return .ok (Text.Utf8.decode bytes.toList)
  catch
    | .noFileOrDirectory .. => return .error (.file (.fileNotFound path))
    | .permissionDenied .. => return .error (.file (.permissionDenied path "read"))
    | _ => return .error (.file (.unreadableFile path))

/-- The files below a directory as a search with this configuration needs them: those
that count, with their texts. -/
def gather (config : Config) (root : Path) : IO Filesystem := do
  let listing ← listFiles root
  let counted := match listing with
    | .ok paths => paths.filter (Search.keeps root config.excludes config.extensions)
    | .error _ => []
  let texts : Entries (Except AccessError String) ←
    counted.mapM fun path => return (path, ← readText path)
  return ⟨fun _ => listing,
    fun path => (texts.find? path).getD (.error (.file (.fileNotFound path)))⟩

/-- The variables of the environment that the configuration looks at. -/
def environment : IO Environment := do
  let names := [Config.extensionsVariable, Config.excludesVariable, Config.workersVariable]
  let values ← names.mapM fun name => return (← IO.getEnv name).map (name, ·)
  return values.reduceOption

/-- The directory that a command works on. -/
def rootOf : Command → Path
  | .find root .. => Path.ofText root
  | .graph root _ => Path.ofText root

/-- How the program is called. -/
def usage : String :=
  "usage: [--verbose] find --root DIR --target NAME\n"
    ++ "         [--relation extends|implements|traits] [--json]\n"
    ++ "       [--verbose] graph --root DIR [--output FILE]"

/-- Ends with a complaint. -/
def complain (message : String) : IO UInt32 := do
  IO.eprintln message
  return 1

/-- Does what a command does. -/
def run (command : Command) : IO UInt32 := do
  match Config.ofEnvironment (← environment) with
  | .error e => complain e.message
  | .ok config =>
    let search : Search := ⟨← gather config (rootOf command), config⟩
    match command.perform search with
    | .error (.file e) => complain e.message
    | .error (.system _) => complain "The files cannot be searched."
    | .ok effect =>
      if let some (file, text) := effect.saved then
        IO.FS.writeFile ((← IO.currentDir) / (Path.ofText file).toText) text
      IO.print effect.printed
      return 0

end Program
end ClassLineage

/-- Reads the arguments and does what the command does. -/
def main (args : List String) : IO UInt32 := do
  match Command.parse args with
  | .ok command => Program.run command
  | .error .help => IO.eprintln Program.usage; return 0
  | .error .misuse =>
    IO.eprintln Program.usage
    return UInt32.ofNat CommandLine.misuseCode
