import ClassLineage.Entries
import ClassLineage.Text.Digit

/-!
# Arguments of a command

A command understands options, some of which take a value.  An option may be written
by any start of its name that no other option shares, and its value stands after it or,
behind an equals sign, with it.  A command may also have subcommands: the first
argument that is no option then names one, and all arguments after it are its own.

## Main definitions

* `OptionAction`, `Grammar` — what an option does, and what a command understands.
* `Attachment`, `Argument` — what is written with an option, and what an argument is.
* `Grammar.classify`, `Grammar.classifyAll` — what the arguments of a command are.
* `Reading`, `Grammar.read` — the settings that arguments make.
-/

namespace ClassLineage
namespace CommandLine

/-- What an option does. -/
inductive OptionAction
  /-- It asks for help. -/
  | help
  /-- It is set or not. -/
  | flag (key : String)
  /-- It takes a value, of a list of choices if there are any. -/
  | value (key : String) (choices : List String)
deriving Repr, DecidableEq

/-- What a command understands. -/
structure Grammar where
  /-- Its options by their names. -/
  options : Entries OptionAction
  /-- It has subcommands. -/
  hasSubcommands : Bool

/-- Why arguments are not understood, or need not be. -/
inductive Stop
  /-- Help is asked for. -/
  | help
  /-- The arguments are wrong. -/
  | misuse
deriving Repr, DecidableEq

/-- What is written with the name of an option. -/
inductive Attachment
  /-- Nothing. -/
  | nothing
  /-- A value behind an equals sign. -/
  | value (text : String)
  /-- Further letters, after an option of one letter. -/
  | letters (cs : List Char)
deriving Repr, DecidableEq

/-- What an argument is. -/
inductive Argument
  /-- No option. -/
  | plain
  /-- The mark after which nothing is an option. -/
  | endOfOptions
  /-- An option with what is written with it. -/
  | option (action : OptionAction) (attached : Attachment)
  /-- It looks like an option, and is none. -/
  | unknown
deriving Repr, DecidableEq

/-- The text writes a negative number. -/
def isNegativeNumber (s : String) : Bool :=
  let isDigit (c : Char) : Bool := (Text.digitValue? c).isSome
  let body := match s.toList.reverse with
    | '\n' :: cs => cs.reverse
    | _ => s.toList
  match body with
  | '-' :: cs =>
    match cs.dropWhile isDigit with
    | [] => !cs.isEmpty
    | '.' :: fraction => !fraction.isEmpty && fraction.all isDigit
    | _ => false
  | _ => false

/-- What stands before and behind the first equals sign, if there is one. -/
def splitEquals (s : String) : Option (String × String) :=
  let name := s.toList.takeWhile (· ≠ '=')
  match s.toList.dropWhile (· ≠ '=') with
  | _ :: value => some (String.ofList name, String.ofList value)
  | [] => none

namespace Grammar

/-- The options that an argument may be short for, each with what is written with it. -/
def abbreviated (g : Grammar) (arg : String) : List Argument :=
  let starts (start name : String) : Bool := start.toList.isPrefixOf name.toList
  if starts "--" arg then
    let (start, attached) : String × Attachment := match splitEquals arg with
      | some (start, value) => (start, .value value)
      | none => (arg, .nothing)
    (g.options.filter fun o => starts start o.1).map fun o => .option o.2 attached
  else
    let letter := String.ofList (arg.toList.take 2)
    g.options.filterMap fun o =>
      if o.1 = letter then some (.option o.2 (.letters (arg.toList.drop 2)))
      else if starts arg o.1 then some (.option o.2 .nothing)
      else none

/-- What an argument is, where options are still understood. -/
def classify (g : Grammar) (arg : String) : Except Stop Argument :=
  if arg.toList.head? ≠ some '-' then .ok .plain
  else match g.options.find? arg with
    | some action => .ok (.option action .nothing)
    | none =>
      if arg = "-" then .ok .plain
      else match (splitEquals arg).bind fun s => (g.options.find? s.1).map (s.2, ·) with
        | some (value, action) => .ok (.option action (.value value))
        | none =>
          match g.abbreviated arg with
          | [option] => .ok option
          | _ :: _ :: _ => .error .misuse
          | [] =>
            if isNegativeNumber arg || arg.toList.contains ' ' then .ok .plain else .ok .unknown

/-- What the arguments are, each with its text. -/
def classifyAll (g : Grammar) : List String → Except Stop (List (String × Argument))
  | [] => .ok []
  | arg :: args =>
    if arg = "--" then .ok ((arg, .endOfOptions) :: args.map (·, .plain))
    else do return (arg, ← g.classify arg) :: (← classifyAll g args)

end Grammar

/-- What has been read of arguments. -/
structure Reading where
  /-- The settings that options made; a flag that is set has the empty text. -/
  settings : Entries String
  /-- Arguments that nobody understands came up. -/
  hasStrangers : Bool
  /-- The name of the subcommand and its arguments. -/
  subcommand : Option (String × List String)
deriving Repr, DecidableEq

namespace Reading

/-- The reading of no arguments. -/
def start : Reading := ⟨[], false, none⟩

/-- The reading with a setting, which replaces an earlier one. -/
def set (key value : String) (r : Reading) : Reading :=
  { r with settings := r.settings.put key value }

end Reading

namespace Grammar

/-- The reading with a value set that is among the choices. -/
def choose (key : String) (choices : List String) (value : String) (r : Reading) :
    Except Stop Reading :=
  if choices.isEmpty || choices.contains value then .ok (r.set key value) else .error .misuse

/-- What is made of the option for help when further letters are written with it: each
is an option again, up to one that nobody understands. -/
def askHelp (g : Grammar) : List Char → Stop
  | [] => .help
  | '-' :: _ => .misuse
  | c :: cs =>
    if (g.options.find? (String.ofList ['-', c])).isNone then .help
    else if cs.head? = some '=' then .misuse
    else askHelp g cs

/-- Reads arguments after what has been read. -/
def read (g : Grammar) (r : Reading) : List (String × Argument) → Except Stop Reading
  | [] => .ok r
  | (arg, .plain) :: rest =>
    if g.hasSubcommands then .ok { r with subcommand := some (arg, rest.map (·.1)) }
    else read g { r with hasStrangers := true } rest
  | (_, .endOfOptions) :: rest =>
    if g.hasSubcommands then .error .misuse else read g { r with hasStrangers := true } rest
  | (_, .unknown) :: rest => read g { r with hasStrangers := true } rest
  | (_, .option .help .nothing) :: _ => .error .help
  | (_, .option .help (.letters cs)) :: _ => .error (g.askHelp cs)
  | (_, .option (.flag key) .nothing) :: rest => read g (r.set key "") rest
  | (_, .option (.value key choices) (.value value)) :: rest => do
    read g (← choose key choices value r) rest
  | (_, .option (.value key choices) .nothing) :: (value, .plain) :: rest => do
    read g (← choose key choices value r) rest
  | (_, .option _ _) :: _ => .error .misuse

end Grammar
end CommandLine
end ClassLineage
