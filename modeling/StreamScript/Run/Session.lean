import StreamScript.Run.Program

/-!
# Sessions

A session runs one script after another with the same globals and the same host.
It counts the runs that have begun, and only the last one of them is current.
-/

namespace StreamScript

/-- **A session.** -/
structure Session (σ : Type) where
  globals : Bindings Value := []
  world : World σ

namespace Session

variable {σ : Type}

/-- Binds a global for all runs to come. -/
def setGlobal (s : Session σ) (name : String) (v : Value) : Session σ :=
  { s with globals := s.globals.set name v }

/-- The value of a global. -/
def global? (s : Session σ) (name : String) : Option Value :=
  s.globals.get? name

/-- Begins a run, and yields its token: the number of runs begun with it. -/
def begin (s : Session σ) : Nat × Session σ :=
  let world := s.world.begin
  (world.generation, { s with world })

/-- Whether a token is that of the last run begun. -/
def isCurrent (s : Session σ) (token : Nat) : Bool :=
  s.world.generation == token

/-- **Runs a program** on an input. -/
def run (s : Session σ) (host : Host σ) (p : Program) (input : Value) :
    Option RunResult × Session σ :=
  let (result, world) := (p.run host s.globals input).run s.world
  (result, { s with world })

end Session

end StreamScript
