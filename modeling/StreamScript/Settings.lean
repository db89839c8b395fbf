import StreamScript.Expr.Basic
import StreamScript.Value.Basic
import StreamScript.Text.Cut

/-!
# Settings

A settings file binds globals and chooses how results are shown and which folder
scripts see. Every line stands for itself: a directive and its arguments, a
comment, or nothing. A line that makes no sense is reported and passed over, and
changes nothing.

Arguments are separated by blanks of ASCII. Quotes keep blanks together, and
between them a backslash takes the character behind it as it is; quotes may open
and close in the middle of an argument, and an empty pair of them is an argument
too.

A value that reads as a finite number or as a truth value is one; everything
else is a text. Quotes make no difference to that.
-/

namespace StreamScript

/-- How results are shown. -/
inductive OutputFormat where
  | text
  | json
deriving DecidableEq, Repr

namespace OutputFormat

/-- The word for a format. -/
def name : OutputFormat → String
  | .text => "text"
  | .json => "json"

/-- The format of a word. -/
def named? (word : String) : Option OutputFormat :=
  [text, json].find? fun format => format.name == word

end OutputFormat

/-- **Settings.** -/
structure Settings where
  globals : Bindings Value := []
  output : OutputFormat := .text
  folder : Option String := none

/-- **Why a line of settings is passed over.** -/
inductive SettingFault where
  | unknownDirective (word : String)
  | noArgument (directive : String)
  | manyArguments (directive : String)
  | missingValue (name : String)
  | emptyName
  | invalidName (name : String)
  | unknownFormat (word : String)
deriving DecidableEq, Repr

/-- The wording of the fault. -/
def SettingFault.message : SettingFault → String
  | .unknownDirective word => "unknown directive '" ++ word ++ "'"
  | .noArgument directive => directive ++ ": requires an argument"
  | .manyArguments directive => directive ++ ": expects exactly one argument"
  | .missingValue name => "set: missing value for '" ++ name ++ "'"
  | .emptyName => "set: variable name cannot be empty"
  | .invalidName name => "set: '" ++ name ++ "' is not a valid name"
  | .unknownFormat word => "unknown output format '" ++ word ++ "'"

/-- A line of settings that has been passed over. -/
structure SettingsError where
  line : Nat
  fault : SettingFault
deriving DecidableEq, Repr

/-- The wording of the error. -/
def SettingsError.message (e : SettingsError) : String :=
  "line " ++ toString e.line ++ ": " ++ e.fault.message

/-! ## Values and arguments -/

/-- **The value that a setting spells.** -/
def settingValue (raw : String) : Value :=
  if raw == "true" then .truth true
  else if raw == "false" then .truth false
  else
    match Number.ofChars? raw.toList with
    | some x => if x.isFinite then .number x else .text raw
    | none => .text raw

/-- An argument in the making: its characters in reverse, and whether it has
begun. -/
structure ArgumentDraft where
  chars : List Char := []
  begun : Bool := false

/-- The argument, if it has begun. -/
def ArgumentDraft.toList (d : ArgumentDraft) : List String :=
  if d.begun then [String.ofList d.chars.reverse] else []

/-- One more character. -/
def ArgumentDraft.add (d : ArgumentDraft) (c : Char) : ArgumentDraft :=
  ⟨c :: d.chars, true⟩

/-- Reads arguments, inside quotes or outside. -/
def argumentsFrom (quoted : Bool) (d : ArgumentDraft) : List Char → List String
  | [] => d.toList
  | '"' :: rest => argumentsFrom (!quoted) { d with begun := true } rest
  | ['\\'] => if quoted then d.toList else (d.add '\\').toList
  | '\\' :: c :: rest =>
    if quoted then argumentsFrom quoted (d.add c) rest
    else argumentsFrom quoted (d.add '\\') (c :: rest)
  | c :: rest =>
    if Text.isAsciiBlank c && !quoted
        then d.toList ++ argumentsFrom quoted {} rest
    else argumentsFrom quoted (d.add c) rest

/-- **The arguments of a directive.** -/
def argumentsOf (cs : List Char) : List String :=
  argumentsFrom false {} cs

/-! ## Directives -/

/-- Checks the name of a global. -/
def checkGlobalName (name : String) : Except SettingFault Unit :=
  if name.isEmpty then .error .emptyName
  else if isIdentifier name then .ok ()
  else .error (.invalidName name)

/-- The name and the text that `set` binds it to: `name=value`, or the name and
the value as separate arguments. -/
def bindingOf : List String → Except SettingFault (String × String)
  | [] => .error (.noArgument "set")
  | first :: rest =>
    match Text.breakOn ['='] first.toList, rest with
    | some (name, value), rest =>
      .ok (String.ofList name,
        String.intercalate " " (String.ofList value :: rest))
    | none, [] => .error (.missingValue first)
    | none, rest => .ok (first, String.intercalate " " rest)

/-- The single argument of a directive. -/
def singleArgument (directive : String) : List String →
    Except SettingFault String
  | [] => .error (.noArgument directive)
  | [argument] => .ok argument
  | _ => .error (.manyArguments directive)

namespace Settings

/-- **Follows a directive.** -/
def follow (s : Settings) (directive : String) (arguments : List String) :
    Except SettingFault Settings :=
  match directive with
  | "set" => do
    let (name, value) ← bindingOf arguments
    checkGlobalName name
    return { s with globals := s.globals.set name (settingValue value) }
  | "output" => do
    let word ← singleArgument directive arguments
    match OutputFormat.named? word with
    | some format => return { s with output := format }
    | none => throw (.unknownFormat word)
  | "folder" => do
    let path ← singleArgument directive arguments
    return { s with folder := some path }
  | _ => .error (.unknownDirective directive)

/-- Whether a line says nothing: it is empty, or a comment. -/
def isIgnored (line : List Char) : Bool :=
  match line with
  | [] => true
  | c :: _ => c == ';' || c == '#'

/-- Reads a line, without the blanks around it. -/
def readLine (s : Settings) (line : List Char) : Except SettingFault Settings :=
  if isIgnored line then .ok s
  else
    let (directive, rest) := line.span fun c => !Text.isAsciiBlank c
    s.follow (String.ofList directive) (argumentsOf (Text.trim rest))

/-- Reads lines from the given number on: the settings they amount to, and the
errors in the order of the lines. -/
def readLines (s : Settings) (number : Nat) :
    List (List Char) → Settings × List SettingsError
  | [] => (s, [])
  | line :: rest =>
    match s.readLine (Text.trim line) with
    | .ok s => s.readLines (number + 1) rest
    | .error fault =>
      let (s, errors) := s.readLines (number + 1) rest
      (s, ⟨number, fault⟩ :: errors)

/-- **Reads settings**, and the errors of the lines that were passed over. -/
def ofText (text : String) : Settings × List SettingsError :=
  readLines {} 1 (Text.lines text.toList)

/-- Binds globals to what texts spell. -/
def bindAll (s : Settings) (bindings : List (String × String)) : Settings :=
  { s with
    globals := s.globals.setAll
      (bindings.map fun (name, raw) => (name, settingValue raw)) }

end Settings

end StreamScript
