import StreamScript.Value.Basic

/-!
# Surroundings of a run

A script can reach outside itself in three ways: it can put a value aside under
a label, ask which files there are, and ask for the contents of one. A `Host`
says what happens then. It has a state of its own, which every request may
change, and it may refuse.

Runs of one session supersede one another. The session counts the runs begun
(`World.generation`); a run is current while the count still stands where its
own beginning left it. Other runs may begin at any time: while the host answers
a request, while a line is executed, while a scope is closed, and between two
lines. A reply therefore carries the number of runs begun meanwhile, and
`Host.pause` says how many begin at each of the other moments. The count can
only grow.

What a run does is an `Act`: it reads and changes the world, and yields a result
or an error. An error does not undo what the world has seen.
-/

namespace StreamScript

/-- **The answer to a request**, and what it has done to the host. -/
structure Reply (σ α : Type) where
  answer : Except String α
  state : σ
  /-- The runs of the session that began while the host was busy. -/
  begun : Nat := 0

/-- **What a script can ask for.** -/
structure Host (σ : Type) where
  /-- Puts a value aside under a label. -/
  sideOutput : String → Value → σ → Reply σ Unit
  /-- The names of the files there are. -/
  listFiles : σ → Reply σ (List String)
  /-- The contents of a file. -/
  loadFile : String → σ → Reply σ String
  /-- What happens at a moment at which nothing is asked of the host: its new
  state, and how many runs begin. -/
  pause : σ → σ × Nat := fun s => (s, 0)

/-- **The world of a session**: the host's state and the number of runs
begun. -/
structure World (σ : Type) where
  host : σ
  generation : Nat := 0
deriving Inhabited

/-- **What a run does to the world**, and its result. -/
abbrev Act (σ α : Type) : Type := ExceptT RunError (StateM (World σ)) α

/-- Puts a request to the host. A refusal is an error of the run. -/
def Act.request {σ α : Type} (ask : σ → Reply σ α) : Act σ α := fun world =>
  let reply := ask world.host
  (reply.answer.mapError .host,
    { host := reply.state, generation := world.generation + reply.begun })

/-- Lets the surroundings have a moment. -/
def World.pause {σ : Type} (host : Host σ) (world : World σ) : World σ :=
  let (state, begun) := host.pause world.host
  { host := state, generation := world.generation + begun }

/-- Begins a run: the count goes up by one. -/
def World.begin {σ : Type} (world : World σ) : World σ :=
  { world with generation := world.generation + 1 }

/-- The words of a host that has nothing to put values aside with. -/
def noSideOutput : String := "side output"

/-- The words of a host that has no folder. -/
def noFolder : String := "current folder"

/-- **A host that refuses everything.** -/
def Host.none (σ : Type) : Host σ where
  sideOutput _ _ s := { answer := .error noSideOutput, state := s }
  listFiles s := { answer := .error noFolder, state := s }
  loadFile _ s := { answer := .error noFolder, state := s }

end StreamScript
