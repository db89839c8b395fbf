import StreamScript.Run.Arena

/-!
# Executing lines

A run goes through the lines of a program. Before a line it closes the scopes
that the line does not stand in, then it executes the line on all leaves, and
after it pauses; if another run has begun meanwhile it ends there, superseded.
A line with `exit` ends the run at once. Whatever scopes are still open at the
end are closed.

A line is executed by one task for every leaf, and whoever runs lines says in
which way these tasks are done (`Drive.linesWith`). If nothing else is said
they are done from left to right (`Drive.lines`).

An error does not lose what has been done. A line that fails leaves the machine
as it was before it, and the error belongs to that line. A scope that fails to
close is closed half: the branches that were folded before it failed remain so.
The error then belongs to the line that had opened the scope.
-/

namespace StreamScript

/-- **The state of a run**: its branches, and the open scopes, the innermost
first. -/
structure Machine where
  arena : Arena
  scopes : List OpenScope := []

/-- The machine after a line: what the line has done on the leaves is put into
place, and if it opens a scope the elements become the leaves. -/
def Machine.after (m : Machine) (line : Nat) (action : Action)
    (outcomes : List Outcome) : Machine :=
  let arena := m.arena.commit (m.arena.leaves.zip outcomes)
  match action.opened? with
  | none => { m with arena }
  | some (form, target) =>
    let mark := m.arena.branches.size
    let s : OpenScope := { line, form, target, parents := m.arena.leaves, mark }
    { arena := arena.descend mark, scopes := s :: m.scopes }

/-- How far a run has come. -/
structure Progress where
  machine : Machine
  /-- The line that the run has reached, 0 if none. -/
  lastLine : Nat := 0

/-- How a run ends if nothing fails. -/
inductive Ending where
  | done
  /-- Another run has begun. -/
  | superseded
deriving DecidableEq, Repr

/-- **What a run does**: it advances, changes the world, and may fail. -/
abbrev Drive (σ α : Type) : Type :=
  ExceptT RunError (StateT Progress (StateM (World σ))) α

namespace Drive

variable {σ : Type}

/-- The machine as it stands. -/
def machine : Drive σ Machine := do
  let p ← get
  return p.machine

/-- Puts another machine in its place. -/
def become (m : Machine) : Drive σ Unit :=
  modify fun p => { p with machine := m }

/-- Notes the line that the run has reached. -/
def arrive (line : Nat) : Drive σ Unit :=
  modify fun p => { p with lastLine := line }

/-- Does something to the world. -/
def perform {α : Type} (act : Act σ α) : Drive σ α :=
  ExceptT.mk (StateT.lift act.run)

/-- Puts an error down to a line. What has been done until then remains. -/
def blame {α : Type} (line : Nat) (d : Drive σ α) : Drive σ α :=
  tryCatch d fun e => do
    arrive line
    throw e

/-- Lets the surroundings have a moment. -/
def pause (host : Host σ) : Drive σ Unit :=
  ExceptT.lift (StateT.lift (modify (World.pause host)))

/-! ## Closing scopes -/

/-- Folds the children of a branch into it. -/
def foldParent (calls : Callables σ) (s : OpenScope) (parent : Nat) :
    Drive σ Unit := do
  let m ← machine
  let yields ← perform (liftM (m.arena.yieldsOf parent))
  let arena := m.arena.drain parent
  become { m with arena }
  let v ← perform (arena.folded calls s.form parent yields)
  become { m with arena := arena.receive s.target parent v }

/-- Folds the children of some branches into them, one branch after the
other. -/
def foldParents (calls : Callables σ) (s : OpenScope) : List Nat → Drive σ Unit
  | [] => return ()
  | parent :: parents => do
    foldParent calls s parent
    foldParents calls s parents

/-- Closes a scope that is open no more. -/
def collect (calls : Callables σ) (s : OpenScope) : Drive σ Unit := do
  foldParents calls s s.parents
  let m ← machine
  become { m with arena := m.arena.ascend s }

/-- **Closes the innermost scope.** An error belongs to the line that opened
it; what was folded before it came up stays folded. -/
def closeScope (host : Host σ) (calls : Callables σ) : Drive σ Unit := do
  let m ← machine
  match m.scopes with
  | [] => return ()
  | s :: outer =>
    pause host
    become { m with scopes := outer }
    blame s.line (collect calls s)

/-- Closes scopes, from the inside out. -/
def closeScopes (host : Host σ) (calls : Callables σ) : Nat → Drive σ Unit
  | 0 => return ()
  | n + 1 => do
    closeScope host calls
    closeScopes host calls n

/-- **Closes the scopes** deeper than a line. -/
def closeTo (host : Host σ) (calls : Callables σ) (depth : Nat) :
    Drive σ Unit := do
  let m ← machine
  closeScopes host calls (m.scopes.length - depth)

/-! ## Lines -/

/-- **Executes a line** on all leaves, and says whether it ends the run. A line
that fails on one of them changes nothing. -/
def stepWith (tasks : Tasks σ) (host : Host σ) (calls : Callables σ)
    (s : Placed Step) :
    Drive σ Bool := do
  match s.content with
  | .blank => return false
  | .invalid e => throw (.invalid e)
  | .act action =>
    pause host
    let m ← machine
    let outcomes ← perform (tasks m.arena calls action)
    become (m.after s.line action outcomes)
    return outcomes.any Outcome.exits

/-- Executes a line, the leaves from left to right. -/
def step (host : Host σ) (calls : Callables σ) (s : Placed Step) :
    Drive σ Bool :=
  stepWith Arena.outcomes host calls s

/-- **Takes a line**: the scopes that it does not stand in are closed, and it is
executed. -/
def takeWith (tasks : Tasks σ) (host : Host σ) (calls : Callables σ)
    (s : Placed Step) :
    Drive σ Bool := do
  closeTo host calls s.depth
  arrive s.line
  stepWith tasks host calls s

/-- Takes a line, the leaves from left to right. -/
def take (host : Host σ) (calls : Callables σ) (s : Placed Step) :
    Drive σ Bool :=
  takeWith Arena.outcomes host calls s

/-- Pauses after a line, and says whether another run has begun. Calls of
functions belong to the run that made them and have no token of their own. -/
def isSuperseded (host : Host σ) (token : Option Nat) : Drive σ Bool := do
  pause host
  let world ← ExceptT.lift (StateT.lift get)
  return token.any (· != world.generation)

/-- **Goes through the lines** of a program or of a function. -/
def linesWith (tasks : Tasks σ) (host : Host σ) (calls : Callables σ)
    (token : Option Nat) :
    List (Placed Step) → Drive σ Ending
  | [] => do
    closeTo host calls 0
    return .done
  | s :: rest =>
    if s.content.isBlank then linesWith tasks host calls token rest
    else do
      if ← takeWith tasks host calls s then
        closeTo host calls 0
        return .done
      else if ← isSuperseded host token then return .superseded
      else linesWith tasks host calls token rest

/-- Goes through lines, the leaves from left to right. -/
def lines (host : Host σ) (calls : Callables σ) (token : Option Nat)
    (l : List (Placed Step)) : Drive σ Ending :=
  linesWith Arena.outcomes host calls token l

end Drive

end StreamScript
