import StreamScript.Run.Machine
import StreamScript.Builtin.Call

/-!
# Running a program

A call finds the functions of the program before the built-in ones. A function
of the program runs its body on branches of its own: the root holds the target
of the call and sees the globals and the parameters, but not the locals of the
caller.

Calls may nest, and so deep only. The allowance that is left goes down by one
with every function entered, and with none left the call is an error. So every
run ends: the allowance, the lines left and the expression at hand are all
finite.

The result of a run is what its root holds in the end. A run that fails leaves
what the lines before made of the input.
-/

namespace StreamScript

/-- How deep calls of functions may nest. -/
def callLimit : Nat := 256

/-- Whether a bare name calls a function: one of the program, or a built-in one
that needs no argument. -/
def Program.isNullary (p : Program) (name : String) : Bool :=
  (p.function? name).isSome || (Builtin.named? name).any fun b =>
    b.spec.least == 0

/-- What the body of a function sees at its beginning: the globals, and the
parameters bound to the arguments. A missing argument is empty. -/
def FunctionDef.locals (d : FunctionDef) (globals : Bindings Value)
    (arguments : List Value) : Bindings Value :=
  globals.setAll
    (d.params.zipIdx.map fun (param, i) => (param, arguments[i]?.getD .empty))

/-- **Runs the body of a function.** -/
def FunctionDef.runWith {σ : Type} (d : FunctionDef) (tasks : Tasks σ)
    (host : Host σ) (calls : Callables σ) (globals : Bindings Value)
    (target : Value) (arguments : List Value) : Act σ Value := do
  let start : Progress :=
    { machine := { arena := .root target (d.locals globals arguments) } }
  let (ending, final) ←
    ((Drive.linesWith tasks host calls none d.body).run.run start :
      StateM (World σ) _)
  let _ ← (ending : Except RunError Ending)
  return final.machine.arena.output

/-- Runs the body of a function, the leaves from left to right. -/
def FunctionDef.run {σ : Type} (d : FunctionDef) (host : Host σ)
    (calls : Callables σ) (globals : Bindings Value) (target : Value)
    (arguments : List Value) : Act σ Value :=
  d.runWith Arena.outcomes host calls globals target arguments

/-- **Calls a function** by its name, with an allowance for further calls. -/
def Program.callWith {σ : Type} (p : Program) (tasks : Tasks σ) (host : Host σ)
    (globals : Bindings Value) : Nat → String → Value → List Value → Act σ Value
  | allowance, name, target, arguments =>
    match p.function? name with
    | none =>
      match Builtin.named? name with
      | some b => b.call host target arguments
      | none => throw (.unknownFunction name)
    | some d => do
      checkArity name 0 d.params.length arguments.length
      match allowance with
      | 0 => throw (.recursion d.name callLimit)
      | allowance + 1 =>
        let calls : Callables σ :=
          ⟨p.isNullary, p.callWith tasks host globals allowance⟩
        d.runWith tasks host calls globals target arguments

/-- Calls a function, the leaves from left to right. -/
def Program.call {σ : Type} (p : Program) (host : Host σ)
    (globals : Bindings Value) :
    Nat → String → Value → List Value → Act σ Value :=
  p.callWith Arena.outcomes host globals

/-- What the lines of a program can call. -/
def Program.callablesWith {σ : Type} (p : Program) (tasks : Tasks σ)
    (host : Host σ) (globals : Bindings Value) : Callables σ :=
  ⟨p.isNullary, p.callWith tasks host globals callLimit⟩

/-- What the lines of a program can call, the leaves from left to right. -/
def Program.callables {σ : Type} (p : Program) (host : Host σ)
    (globals : Bindings Value) :
    Callables σ :=
  ⟨p.isNullary, p.call host globals callLimit⟩

/-- **The result of a run.** -/
structure RunResult where
  output : Value
  /-- The line the run has reached, or the line of the scope that failed to
  close. -/
  lastLine : Nat
  error : Option RunError := none

namespace RunResult

/-- Whether the run has come to its end. -/
def isComplete (r : RunResult) : Bool :=
  r.error.isNone

/-- The wording of the error. -/
def errorText (r : RunResult) : Option String :=
  r.error.map (·.report r.lastLine)

/-- The result, from how a run has ended and how far it has come. -/
def of? (ending : Except RunError Ending) (final : Progress) :
    Option RunResult :=
  let output := final.machine.arena.output
  match ending with
  | .ok .superseded => none
  | .ok .done => some { output, lastLine := final.lastLine }
  | .error e => some { output, lastLine := final.lastLine, error := some e }

end RunResult

/-- **Runs lines** on an input, with the functions of a program. There is no
result if another run began meanwhile. -/
def Program.runLinesWith {σ : Type} (p : Program) (tasks : Tasks σ)
    (host : Host σ) (globals : Bindings Value) (lines : List (Placed Step))
    (input : Value) :
    StateM (World σ) (Option RunResult) := do
  modify World.begin
  let token := (← get).generation
  let start : Progress := { machine := { arena := .root input globals } }
  let calls := p.callablesWith tasks host globals
  let (ending, final) ← (Drive.linesWith tasks host calls (some token)
      lines).run.run start
  return RunResult.of? ending final

/-- Runs lines on an input, the leaves from left to right. -/
def Program.runLines {σ : Type} (p : Program) (host : Host σ)
    (globals : Bindings Value) (lines : List (Placed Step)) (input : Value) :
    StateM (World σ) (Option RunResult) :=
  p.runLinesWith Arena.outcomes host globals lines input

/-- **Runs a program** on an input, and does the tasks of its lines in some
way. -/
def Program.runWith {σ : Type} (p : Program) (tasks : Tasks σ) (host : Host σ)
    (globals : Bindings Value) (input : Value) :
    StateM (World σ) (Option RunResult) :=
  p.runLinesWith tasks host globals p.steps input

/-- **Runs a program** on an input, the leaves from left to right. -/
def Program.run {σ : Type} (p : Program) (host : Host σ)
    (globals : Bindings Value) (input : Value) :
    StateM (World σ) (Option RunResult) :=
  p.runLines host globals p.steps input

end StreamScript
