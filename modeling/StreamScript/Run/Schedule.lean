import StreamScript.Run.Program

/-!
# Tasks done in any order

A line is executed on every leaf by a task of its own, and the tasks of a line
are under way together: while one of them waits for the host the others go on.
So they are done in whatever order the surroundings bring about, and the first
that fails ends the line. What the order can be seen in is which of several
errors comes first, and no line of a script can count on one of them.

A `Schedule` settles the order for a whole run. It may be another one for every
line that is executed, and since the body of a function has lines of its own
their tasks are ordered as well, wherever the function is called. To tell the
lines apart a run counts its moments (`Timed`): there is one when the tasks of a
line are begun, and one more when each of them has its turn. Besides the order
a schedule says what the tasks that are still under way have done to the host
by then.

`Program.runIn` runs a program on schedule. With the schedule that takes the
leaves from left to right it is `Program.run`.
-/

namespace StreamScript

variable {σ : Type}

/-- **A schedule** for the tasks of a run. -/
structure Schedule (σ : Type) where
  /-- The order in which the tasks of a line are done, each known by the place
  of its leaf among the leaves. It depends on the moment, and on how many there
  are. -/
  order : Nat → Nat → List Nat
  /-- Every task is done, and none of them twice. -/
  perm : ∀ moment n, (order moment n).Perm (List.range n)
  /-- What the tasks that are still under way do to the host in a moment. -/
  meanwhile : Nat → σ → σ := fun _ state => state

/-- **The state of a host in a run that counts its moments.** -/
structure Timed (σ : Type) where
  state : σ
  moment : Nat := 0

/-- An answer, given in a moment. -/
def Reply.timed {α : Type} (r : Reply σ α) (moment : Nat) : Reply (Timed σ) α :=
  { answer := r.answer, state := { state := r.state, moment },
    begun := r.begun }

/-- **A host that is asked in moments.** It answers as ever. -/
def Host.timed (host : Host σ) : Host (Timed σ) where
  sideOutput label v t := (host.sideOutput label v t.state).timed t.moment
  listFiles t := (host.listFiles t.state).timed t.moment
  loadFile name t := (host.loadFile name t.state).timed t.moment
  pause t :=
    ({ t with state := (host.pause t.state).1 }, (host.pause t.state).2)

/-- What a line does on the leaf at a place. -/
def Arena.taskAt (a : Arena) (calls : Callables σ) (action : Action)
    (place : Nat) :
    Act σ Outcome :=
  match a.leaves[place]? with
  | some leaf => a.outcome calls action leaf
  | none => throw (.task ("no leaf " ++ toString place))

namespace Schedule

/-- The schedule that does the tasks from left to right, each when the one
before it is done. -/
def leftToRight (σ : Type) : Schedule σ where
  order _ n := List.range n
  perm _ n := .refl (List.range n)

/-- The schedule that does the tasks the other way round. -/
def rightToLeft (σ : Type) : Schedule σ where
  order _ n := (List.range n).reverse
  perm _ n := List.reverse_perm (List.range n)

/-- The next moment of a run, and what happens in it. -/
def turn (s : Schedule σ) : Act (Timed σ) Nat := fun w =>
  let t := w.host
  (.ok t.moment,
    { w with
      host := { state := s.meanwhile t.moment t.state, moment := t.moment + 1 } })

/-- The task of the leaf at a place, when it has its turn, with the place at
which the outcome belongs. -/
def task (s : Schedule σ) (a : Arena) (calls : Callables (Timed σ))
    (action : Action) (place : Nat) : Act (Timed σ) (Nat × Outcome) := do
  let _ ← s.turn
  let outcome ← a.taskAt calls action place
  return (place, outcome)

/-- **The tasks of a line, on schedule.** The first that fails ends them, and
those that are still under way are given up. The outcomes go to the places of
their leaves. -/
def tasks (s : Schedule σ) : Tasks (Timed σ) := fun a calls action => do
  let moment ← s.turn
  let arrived ← (s.order moment a.leaves.length).mapM (s.task a calls action)
  return (List.range a.leaves.length).filterMap fun place =>
    arrived.lookup place

end Schedule

/-- A world whose moments begin to be counted. -/
def World.timed (w : World σ) : World (Timed σ) :=
  { host := { state := w.host }, generation := w.generation }

/-- A world whose moments are forgotten. -/
def World.untimed (w : World (Timed σ)) : World σ :=
  { host := w.host.state, generation := w.generation }

/-- **Runs a program on schedule.** -/
def Program.runIn (p : Program) (s : Schedule σ) (host : Host σ)
    (globals : Bindings Value) (input : Value) :
    StateM (World σ) (Option RunResult) := fun w =>
  let (result, w') := (p.runWith s.tasks host.timed globals input).run w.timed
  (result, w'.untimed)

end StreamScript
