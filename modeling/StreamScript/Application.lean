import StreamScript.CommandLine
import StreamScript.Symbols
import StreamScript.Layout
import StreamScript.Run.Session
import StreamScript.Files.Folder

/-!
# The command

The command runs a script over an input and prints what comes of it. It reads
the settings, then the script, then the input, and stops at the first of them
that cannot be read. Asked to, it only lists the symbols of the script or
reports its first faulty line, and does not look at the input.

What it needs from outside is in `Surroundings`, so that the command itself is a
function of what it finds there. Its effects are its `Output`: two texts and a
status.
-/

namespace StreamScript

/-- The name under which the command reports. -/
def commandName : String := "sift"

/-- **What the command finds around it.** -/
structure Surroundings (m : Type → Type) where
  /-- The contents of a file. -/
  readText : String → m (Except FileError String)
  /-- Whether there is anything at a path. -/
  isThere : String → m Bool
  /-- The entries of a folder. -/
  listFolder : String → m (Except FileError (List (String × FileNode)))
  /-- The standard input. -/
  readInput : m (List UInt8)
  /-- Where the user keeps settings, if there is such a place. -/
  userSettings : m (Option String)

/-- **What the command does**: what it prints, where, and its status. -/
structure Output where
  status : Nat
  out : String := ""
  err : String := ""
deriving DecidableEq, Repr

/-- **Why the command cannot do its work.** -/
inductive Failure where
  | settings (path : String) (e : FileError)
  | script (path : String) (e : FileError)
  | tokens (path : String) (e : LexError)
  | input (path : String) (e : FileError)
  | standardInput (e : Text.Utf8Error)

namespace Failure

/-- What could not be done. -/
def context : Failure → String
  | settings path _ => "can't read config " ++ path
  | script path _ => "can't read script " ++ path
  | tokens path _ => path
  | input path _ => "can't read input " ++ path
  | standardInput _ => "can't read standard input"

/-- Why it could not be done. -/
def cause : Failure → String
  | settings _ e | script _ e | input _ e => e.message
  | tokens _ e => e.message
  | standardInput e => e.message

/-- What is printed. -/
def output (f : Failure) : Output :=
  { status := 1, err := "Error: " ++ f.context ++ "\n\nCaused by:\n    "
    ++ f.cause ++ "\n" }

end Failure

/-! ## Shown results -/

namespace RunResult

/-- A result as JSON. -/
def toJson (r : RunResult) : Json :=
  .object
    [("output", r.output.toJson),
      ("lastLine", .integer r.lastLine),
      ("isComplete", .bool r.isComplete),
      ("error", match r.errorText with
        | some text => .string text
        | none => .null)]

/-- A result in the given format, with its status. As text only the value is
part of what the command prints, and an error is reported. -/
def shown (r : RunResult) (format : OutputFormat) : Output :=
  let status := if r.isComplete then 0 else 1
  match format with
  | .json => { status, out := String.ofList (r.toJson.pretty 0) ++ "\n" }
  | .text =>
    let err := match r.errorText with
      | some text => commandName ++ ": " ++ text ++ "\n"
      | none => ""
    { status, out := r.output.display ++ "\n", err }

end RunResult

/-- A value put aside, as it is printed. -/
def sideLine (side : String × Value) : String :=
  "[" ++ side.1 ++ "] " ++ side.2.display ++ "\n"

/-- A symbol as JSON. -/
def Symbol.toJson (s : Symbol) : Json :=
  .object
    [("name", .string s.name), ("kind", .string s.kind.name),
      ("signature", .string s.signature),
      ("summary", .string s.summary)]

/-- The symbols in sight of a program, as the command prints them. -/
def Program.symbolsOutput (p : Program) : Output :=
  let json : Json := .array (p.symbols.map Symbol.toJson)
  { status := 0, out := String.ofList (json.pretty 0) ++ "\n" }

/-- The first faulty line of a script, as the command prints it. -/
def Program.checkOutput (p : Program) (path : String) : Output :=
  match p.diagnostic with
  | some e =>
    { status := 1, err := commandName ++ ": " ++ path ++ ": " ++ e.message
      ++ "\n" }
  | none => { status := 0 }

/-- The wording of a refused command line. -/
def UsageError.output : UsageError → Output
  | .missingScript => refused "a script is required"
  | .unknownArgument => refused "unexpected argument"
  | .conflict => refused "arguments cannot be used together or repeated"
  | .invalidBinding => refused "invalid binding, expected NAME=VALUE"
  | .emptyValue => refused "a value is required"
  | .superfluousValue => refused "unexpected value"
  | .helpRequested => { status := 0, out := usage }
where
  /-- How the command is used. -/
  usage : String :=
    "Usage: " ++ commandName
      ++ " [--config FILE | --no-config] [--set NAME=VALUE]... [--json]\n"
      ++ "            [--folder DIR] [--check | --symbols] [-v]... SCRIPT [INPUT]\n"
  /-- A command line that asks for nothing that can be done. -/
  refused (reason : String) : Output :=
    { status := 2, err := "error: " ++ reason ++ "\n\n" ++ usage }

/-! ## The command -/

namespace Application

variable {m : Type → Type} [Monad m]

/-- The settings file of the working folder. -/
def localSettings : String := "./.siftrc"

/-- The first of some paths at which there is something. -/
def firstThere (around : Surroundings m) : List String → m (Option String)
  | [] => pure none
  | path :: paths => do
    if ← around.isThere path then return some path else firstThere around paths

/-- The settings file to read, if there is one. -/
def settingsPath (around : Surroundings m) : SettingsSource → m (Option String)
  | .skip => pure none
  | .file path => pure (some path)
  | .search => do
    let user ← around.userSettings
    firstThere around (user.toList ++ [localSettings])

/-- Reads the settings, and binds what the command line binds. Lines that make
no sense are passed over. -/
def readSettings (around : Surroundings m) (a : Arguments) :
    ExceptT Failure m Settings := do
  match ← (settingsPath around a.settings : m _) with
  | none => return Settings.bindAll {} a.bindings
  | some path =>
    match ← around.readText path with
    | .error e => throw (.settings path e)
    | .ok text => return (Settings.ofText text).1.bindAll a.bindings

/-- Reads the script. -/
def readProgram (around : Surroundings m) (a : Arguments) :
    ExceptT Failure m Program := do
  match ← around.readText a.script with
  | .error e => throw (.script a.script e)
  | .ok text =>
    match Program.ofScript text with
    | .error e => throw (.tokens a.script e)
    | .ok p => return p

/-- Reads the input, from its file or from the standard input, and the name of
the file. -/
def readInput (around : Surroundings m) (a : Arguments) :
    ExceptT Failure m (String × String) := do
  match a.input with
  | some path =>
    match ← around.readText path with
    | .error e => throw (.input path e)
    | .ok text => return (text, (Path.fileName? path).getD "")
  | none =>
    match Text.decode (← around.readInput) with
    | .error e => throw (.standardInput e)
    | .ok text => return (text, "")

/-- The folder that the script sees. -/
def readFolder (around : Surroundings m) (path : String) : m Folder := do
  let entries ← around.listFolder (if path.isEmpty then "." else path)
  return { path, entries }

/-- Runs a program, and prints what it has put aside and its result. -/
def runOutput (p : Program) (folder : Folder) (globals : Bindings Value)
    (input : String) (format : OutputFormat) : Output :=
  let session : Session SideOutputs := { globals, world := { host := [] } }
  let (result, session) := session.run folder.host p (.text input)
  let side := String.join (session.world.host.map sideLine)
  match result with
  | none => { status := 1, err := "Error: run was superseded\n" }
  | some r =>
    let output := r.shown format
    { output with err := side ++ output.err }

/-- **The command**, for arguments that have been read. -/
def perform (around : Surroundings m) (a : Arguments) :
    ExceptT Failure m Output := do
  let settings ← readSettings around a
  let program ← readProgram around a
  if a.symbols then return program.symbolsOutput
  else if a.check then return program.checkOutput a.script
  else
    let (input, fileName) ← readInput around a
    let path := (a.folder.or settings.folder).getD "."
    let folder ← (readFolder around path : m _)
    let globals := settings.globals.set "fileName" (.text fileName)
    let format := if a.json then .json else settings.output
    return runOutput program folder globals input format

/-- **The command.** -/
def run (around : Surroundings m) (arguments : List String) : m Output := do
  match Arguments.ofList? arguments with
  | .error e => return e.output
  | .ok a =>
    match ← (perform around a).run with
    | .ok output => return output
    | .error failure => return failure.output

end Application

/-- **A tree of files as surroundings**, with the given standard input. The
settings of the user are where home folders keep them, with the tree as the
home folder. -/
def FileTree.surroundings (t : FileTree) (input : List UInt8) :
    Surroundings Id where
  readText := t.readText
  isThere path := (t.locate path).toOption.isSome
  listFolder := t.listFolder
  readInput := input
  userSettings := some ".config/sift/siftrc"

end StreamScript
