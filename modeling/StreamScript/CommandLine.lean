import StreamScript.Settings

/-!
# The command line

The command line names a script and perhaps an input, and options around them.
Options begin with hyphens, may stand anywhere, and are written out in full;
`--` ends them. An option with a value takes it from behind an equals sign or
from the argument that follows, unless that looks like an option itself. A
single hyphen looks like none.

A value is not judged where it is read but when the next option or operand
begins, or at the end. It waits until then (`Pending`), which settles what of
several faults is reported: an option that does not exist is reported at once,
and what waits is not looked at any more. When all arguments have been read,
options that exclude each other come before a script that is missing.
-/

namespace StreamScript

/-- **Why a command line is refused.** Asking for help is among the reasons. -/
inductive UsageError where
  | missingScript
  /-- An option that does not exist, or an operand too many. -/
  | unknownArgument
  /-- Options that exclude each other, or an option given twice. -/
  | conflict
  /-- A binding that is none. -/
  | invalidBinding
  /-- An empty path, or an option without its value. -/
  | emptyValue
  /-- A value for an option that takes none. -/
  | superfluousValue
  | helpRequested
deriving DecidableEq, Repr

/-- **Where the settings come from.** -/
inductive SettingsSource where
  /-- The usual places. -/
  | search
  /-- There are none. -/
  | skip
  | file (path : String)
deriving DecidableEq, Repr

/-- **What the command line asks for.** -/
structure Arguments where
  settings : SettingsSource
  /-- The globals bound, in order. -/
  bindings : List (String × String)
  json : Bool
  folder : Option String
  check : Bool
  symbols : Bool
  verbosity : Nat
  script : String
  input : Option String
deriving DecidableEq, Repr

/-- How much is logged at a verbosity. -/
def logLevel : Nat → String
  | 0 => "warn"
  | 1 => "info"
  | 2 => "debug"
  | _ => "trace"

/-! ## Bindings -/

/-- **Why a text binds no global.** -/
inductive BindingFault where
  | noValue (raw : String)
  | invalidName (name : String)
deriving DecidableEq, Repr

/-- The wording of the fault. -/
def BindingFault.message : BindingFault → String
  | .noValue raw => "expected NAME=VALUE, got '" ++ raw ++ "'"
  | .invalidName name => "'" ++ name ++ "' is not a valid name"

/-- **Reads a binding**, `NAME=VALUE`. -/
def readBinding (raw : String) : Except BindingFault (String × String) :=
  match Text.breakOn ['='] raw.toList with
  | none => .error (.noValue raw)
  | some (name, value) =>
    if isIdentifier (String.ofList name)
        then .ok (String.ofList name, String.ofList value)
    else .error (.invalidName (String.ofList name))

/-! ## Options -/

/-- The options that are on or off. -/
inductive Switch where
  | noConfig
  | json
  | check
  | symbols
deriving DecidableEq, Repr

/-- What can have a value: three options and the two operands. -/
inductive Slot where
  | config
  | binding
  | folder
  | script
  | input
deriving DecidableEq, Repr

/-- **An option.** -/
inductive OptionName where
  | switch (s : Switch)
  | valued (s : Slot)
  | verbose
  | help
deriving DecidableEq, Repr

/-- The option of a long name. -/
def OptionName.long? : String → Option OptionName
  | "config" => some (.valued .config)
  | "no-config" => some (.switch .noConfig)
  | "set" => some (.valued .binding)
  | "json" => some (.switch .json)
  | "folder" => some (.valued .folder)
  | "check" => some (.switch .check)
  | "symbols" => some (.switch .symbols)
  | "verbose" => some .verbose
  | "help" => some .help
  | _ => none

/-- The option of a letter. -/
def OptionName.short? : Char → Option OptionName
  | 'v' => some .verbose
  | 'h' => some .help
  | _ => none

/-- The greatest verbosity. -/
def mostVerbose : Nat := 255

/-- **The state of the reader**: what has been settled, and what waits. -/
structure ArgumentReading where
  switches : List Switch := []
  values : List (Slot × String) := []
  bindings : List (String × String) := []
  verbosity : Nat := 0
  /-- The operands begun. -/
  operands : Nat := 0
  /-- What waits, with its value if that has been read. -/
  pending : Option (Slot × Option String) := none

namespace ArgumentReading

/-- The value of an option or an operand. -/
def value? (r : ArgumentReading) (slot : Slot) : Option String :=
  r.values.lookup slot

/-- Puts a value where it belongs. Bindings collect, everything else has one
value. -/
def settle (r : ArgumentReading) (slot : Slot) (value : String) :
    Except UsageError ArgumentReading :=
  match slot with
  | .binding =>
    match readBinding value with
    | .ok b => .ok { r with bindings := r.bindings ++ [b] }
    | .error _ => .error .invalidBinding
  | slot =>
    if (r.value? slot).isSome then .error .conflict
    else if value.isEmpty then .error .emptyValue
    else .ok { r with values := r.values ++ [(slot, value)] }

/-- **Settles what waits.** -/
def resolve (r : ArgumentReading) : Except UsageError ArgumentReading :=
  match r.pending with
  | none => .ok r
  | some (_, none) => .error .emptyValue
  | some (slot, some value) => { r with pending := none }.settle slot value

/-- An option that has no value. -/
def apply (r : ArgumentReading) (option : OptionName) :
    Except UsageError ArgumentReading := do
  let r ← r.resolve
  match option with
  | .switch s =>
    if r.switches.contains s then throw .conflict
    else return { r with switches := s :: r.switches }
  | .verbose => return { r with verbosity := min mostVerbose (r.verbosity + 1) }
  | .help => throw .helpRequested
  | .valued slot => return { r with pending := some (slot, none) }

/-- A long option, with the value behind its equals sign. -/
def readLong (r : ArgumentReading) (name : String) (value : Option String) :
    Except UsageError ArgumentReading :=
  match OptionName.long? name, value with
  | none, _ => .error .unknownArgument
  | some (.valued slot), some value => do
    let r ← r.resolve
    r.settle slot value
  | some _, some _ => .error .superfluousValue
  | some option, none => r.apply option

/-- Several letters behind one hyphen. -/
def readShort (r : ArgumentReading) : List Char →
    Except UsageError ArgumentReading
  | [] => .ok r
  | c :: rest =>
    match OptionName.short? c with
    | none => .error .unknownArgument
    | some option => do
      let r ← r.apply option
      r.readShort rest

/-- The operand that comes next. -/
def nextOperand? (r : ArgumentReading) : Option Slot :=
  match r.operands with
  | 0 => some .script
  | 1 => some .input
  | _ => none

/-- An operand. -/
def readOperand (r : ArgumentReading) (value : String) :
    Except UsageError ArgumentReading :=
  match r.nextOperand? with
  | none => .error .unknownArgument
  | some slot => do
    let r ← r.resolve
    return { r with
      pending := some (slot, some value)
      operands := r.operands + 1 }

/-- An argument that does not look like an option: the value of the option that
waits for one, or an operand. -/
def readPlain (r : ArgumentReading) (value : String) :
    Except UsageError ArgumentReading :=
  match r.pending with
  | some (slot, none) => .ok { r with pending := some (slot, some value) }
  | _ => r.readOperand value

/-- An argument before `--`. -/
def read (r : ArgumentReading) (argument : String) :
    Except UsageError ArgumentReading :=
  match argument.toList with
  | '-' :: '-' :: long =>
    match Text.breakOn ['='] long with
    | some (name, value) =>
      r.readLong (String.ofList name) (some (String.ofList value))
    | none => r.readLong (String.ofList long) none
  | '-' :: c :: more => r.readShort (c :: more)
  | _ => r.readPlain argument

/-- Reads arguments; behind `--` there are operands only. -/
def readAll (r : ArgumentReading) : List String →
    Except UsageError ArgumentReading
  | [] => r.resolve
  | argument :: rest => do
    if argument == "--" then
      let r ← rest.foldlM readOperand r
      r.resolve
    else
      let r ← r.read argument
      r.readAll rest

/-- Whether options have been given that exclude each other. -/
def hasConflict (r : ArgumentReading) : Bool :=
  ((r.value? .config).isSome && r.switches.contains .noConfig)
    || (r.switches.contains .check && r.switches.contains .symbols)

/-- Where the settings come from. -/
def source (r : ArgumentReading) : SettingsSource :=
  if r.switches.contains .noConfig then .skip
  else
    match r.value? .config with
    | some path => .file path
    | none => .search

/-- What has been asked for. -/
def finish (r : ArgumentReading) : Except UsageError Arguments :=
  if r.hasConflict then .error .conflict
  else
    match r.value? .script with
    | none => .error .missingScript
    | some script =>
      .ok
        { settings := r.source
          bindings := r.bindings
          json := r.switches.contains .json
          folder := r.value? .folder
          check := r.switches.contains .check
          symbols := r.switches.contains .symbols
          verbosity := r.verbosity
          script
          input := r.value? .input }

end ArgumentReading

/-- **Reads a command line**, without the name of the program. -/
def Arguments.ofList? (arguments : List String) :
    Except UsageError Arguments := do
  let r ← ArgumentReading.readAll {} arguments
  r.finish

end StreamScript
