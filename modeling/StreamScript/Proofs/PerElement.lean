import StreamScript.Proofs.Steady

/-!
# The meaning of a block, element by element

A run executes every line on all the branches there are, and only the depths of
the lines tell it where a block ends. What a script means is said more directly
by recursion: a scope runs its whole block on one element after the other, each
time on a fresh branch, folds what has become of them, and goes on behind the
block. `PerElement.run` is that recursion. There is no tree of branches in it:
a branch is what it holds (`Cell`) and where it stands (`Spot`), and the
branches above it are there only through their locals.

`Program.byElement` is a whole program read so, the calls of its functions
included. That it comes to the same value as the run does is the subject of
`StreamScript.Proofs.Equivalence`.
-/

namespace StreamScript

variable {σ : Type}

/-! ## Branches by themselves

In a block that is run on one element there is one branch, and all that it can
see. Its own stream and locals change from line to line; its position and the
locals above it stay. They are kept apart because a scope hands on the latter
and begins the former anew. -/

/-- **What a branch holds.** It is what is left of a branch of the arena when
its place in the arena is forgotten. -/
structure Cell where
  stream : Value
  locals : Bindings Value := []

/-- **Where a branch stands**: its position among the elements of the scope,
and the locals of the branches above it, the nearest first. An expression on a
branch can see no more than the branch and this. In the arena the same is found
by following the parents of the branch up to the root. -/
structure Spot where
  index : Nat := 0
  above : List (Bindings Value) := []

/-- What can be seen from a branch. -/
def Spot.scope (spot : Spot) (c : Cell) : Scope :=
  { stream := c.stream, index := spot.index, vars := c.locals :: spot.above }

/-- Where the branch of an element stands. -/
def Spot.below (spot : Spot) (c : Cell) (index : Nat) : Spot :=
  { index, above := c.locals :: spot.above }

namespace Cell

/-- What a branch holds after a line. -/
def settle (c : Cell) (outcome : Outcome) : Cell :=
  { stream := outcome.stream,
    locals := Bindings.setAll c.locals outcome.bind.toList }

/-- What a branch holds after it has received the value of a scope. -/
def receive (c : Cell) (target : Option String) (v : Value) : Cell :=
  match target with
  | none => { c with stream := v }
  | some name => { c with locals := c.locals.set name v }

end Cell

/-- **The value of a scope** on a branch, from what has become of its elements.
Without an expression behind the scope that is what the elements fold into;
otherwise the expression is evaluated on it. -/
def ScopeForm.value (calls : Callables σ) (form : ScopeForm) (scope : Scope)
    (yields : List Yield) : Act σ Value := do
  let v ← form.kind.fold yields
  match form.post with
  | none => return v
  | some post => post.eval calls (scope.retarget v)

/-- Whether a line stands in the block of a line of some depth, if it comes
behind it. Empty lines stand anywhere. -/
def standsIn (depth : Nat) (x : Placed Step) : Bool :=
  x.content.isBlank || depth < x.depth

namespace PerElement

/-- What becomes of an element on a branch of its own. The branch begins with
the element in its stream and without locals. -/
def yieldOf (block : Spot → Cell → Act σ Cell) (spot : Spot) (v : Value) :
    Act σ Yield := do
  let c ← block spot { stream := v }
  return { result := c.stream, origin := v }

/-- **A scope on one branch**: its block is run to its end on each element in
turn, and the value that this is folded into goes where it belongs. There is no
arena here and no list of leaves: an element is finished before the next is
begun, where the run takes all elements through one line before it comes to the
next line. -/
def scope (calls : Callables σ) (form : ScopeForm) (target : Option String)
    (elements : List Value) (block : Spot → Cell → Act σ Cell) (spot : Spot)
    (c : Cell) :
    Act σ Cell := do
  let yields ← elements.zipIdx.mapM fun (v, i) =>
    yieldOf block (spot.below c i) v
  let v ← form.value calls (spot.scope c) yields
  return c.receive target v

/-- **Runs lines on one branch**, one after the other, and the block of a scope
on all its elements before it goes on. The block is what follows the line that
opens a scope and stands deeper than it, and the recursion is on the number of
lines that are left. -/
def run (calls : Callables σ) (lines : List (Placed Step)) (spot : Spot)
    (c : Cell) :
    Act σ Cell :=
  match lines with
  | [] => pure c
  | x :: rest =>
    match x.content with
    | .blank => run calls rest spot c
    | .invalid e => throw (.invalid e)
    | .act .exit => pure c
    | .act action => do
      let outcome ← action.execute calls (spot.scope c)
      match action.opened? with
      | none => run calls rest spot (c.settle outcome)
      | some (form, target) =>
        let block := run calls (rest.takeWhile (standsIn x.depth))
        let c ← scope calls form target (outcome.elements.getD []) block spot
            (c.settle outcome)
        run calls (rest.dropWhile (standsIn x.depth)) spot c
termination_by lines.length
decreasing_by
  all_goals simp only [List.length_cons]
  · omega
  · omega
  · exact Nat.lt_succ_of_le (List.takeWhile_sublist _).length_le
  · exact Nat.lt_succ_of_le (List.dropWhile_sublist _).length_le

end PerElement

/-! ## Programs

A function is called with the globals and its parameters for locals, and its
body is run on a branch of its own with nothing above it. Calls may nest as
often as on the machine, and the error is the same if they nest deeper. -/

/-- Runs the body of a function, element by element. -/
def FunctionDef.byElement (d : FunctionDef) (calls : Callables σ)
    (globals : Bindings Value) (target : Value) (arguments : List Value) :
    Act σ Value := do
  let c ← PerElement.run calls d.body {}
    { stream := target, locals := d.locals globals arguments }
  return c.stream

/-- **Calls a function** whose body is run element by element. A name the
program does not define is a built-in function or an error, as in
`Program.call`; the difference is only in how the lines of a body are run. -/
def Program.callByElement (p : Program) (host : Host σ)
    (globals : Bindings Value) :
    Nat → String → Value → List Value → Act σ Value
  | allowance, name, target, arguments =>
    match p.function? name with
    | none =>
      match Builtin.named? name with
      | some b => b.call host target arguments
      | none => throw (.unknownFunction name)
    | some d => do
      checkArity name 0 d.params.length arguments.length
      match allowance with
      | 0 => throw (.recursion d.name callLimit)
      | allowance + 1 =>
        d.byElement ⟨p.isNullary, p.callByElement host globals allowance⟩
          globals target arguments

/-- **What a program makes of an input**, element by element. This is the
meaning that a program has for someone who reads it: it mentions neither
branches nor the order in which lines are executed on them. -/
def Program.byElement (p : Program) (host : Host σ) (globals : Bindings Value)
    (input : Value) :
    Act σ Value := do
  let c ← PerElement.run ⟨p.isNullary, p.callByElement host globals callLimit⟩
    p.steps {} { stream := input, locals := globals }
  return c.stream

/-! ## Sequencing

The meaning of a block is put together by sequencing, and so it keeps every
relation between acts that sequencing keeps. In particular it depends on the
calls in it only as far as these do. -/

section Related

variable {R : ∀ {α : Type}, Act σ α → Act σ α → Prop} {c d : Callables σ}

/-- The value of a scope. -/
theorem ScopeForm.value_related (hR : Act.Closed R)
    (hc : Callables.Related R c d) (form : ScopeForm) (scope : Scope)
    (yields : List Yield) :
    R (form.value c scope yields) (form.value d scope yields) := by
  refine hR.bind (hR.lift (form.kind.ordinary_fold yields).fits) fun v => ?_
  cases form.post with
  | none => exact hR.pure v
  | some post => exact post.eval_related hR.ordinarily hc (scope.retarget v)

/-- A scope, if its block is related on every branch. -/
theorem PerElement.scope_related (hR : Act.Closed R)
    (hc : Callables.Related R c d) {block block' : Spot → Cell → Act σ Cell}
    (hblock : ∀ spot x, R (block spot x) (block' spot x)) (form : ScopeForm)
    (target : Option String) (elements : List Value) (spot : Spot) (x : Cell) :
    R (scope c form target elements block spot x)
    (scope d form target elements block' spot x) := by
  refine hR.bind (hR.ordinarily.mapM _ fun a _ => ?_) fun yields => ?_
  · exact hR.bind (hblock _ _) fun x => hR.pure _
  · exact hR.bind (form.value_related hR hc _ yields) fun v => hR.pure _

/-- **Running a block keeps a relation** that the calls in it keep. What is
used of it most is that it comes to the same in every world if the calls do.
The induction is on the number of lines, because a block and what follows it
are both shorter than the list they are taken from. -/
theorem PerElement.run_related (hR : Act.Closed R)
    (hc : Callables.Related R c d)
    (hinvalid : ∀ e, R (throw (.invalid e) : Act σ Cell) (throw (.invalid e)))
    (lines : List (Placed Step)) (spot : Spot) (x : Cell) :
    R (run c lines spot x) (run d lines spot x) := by
  induction hn : lines.length
    using Nat.strongRecOn generalizing lines spot x with
  | _ n ih =>
    cases lines with
    | nil =>
      rw [run, run]
      exact hR.pure x
    | cons y rest =>
      rw [run, run]
      have hlt : rest.length < n := hn ▸ Nat.lt_succ_self _
      have hblock : (rest.takeWhile (standsIn y.depth)).length < n :=
        Nat.lt_of_le_of_lt (List.takeWhile_sublist _).length_le hlt
      have hafter : (rest.dropWhile (standsIn y.depth)).length < n :=
        Nat.lt_of_le_of_lt (List.dropWhile_sublist _).length_le hlt
      split
      · exact ih _ hlt _ _ _ rfl
      · exact hinvalid _
      · exact hR.pure x
      · next action _ _ =>
        refine hR.bind (action.execute_related hR.ordinarily hc _)
          fun outcome => ?_
        split
        · exact ih _ hlt _ _ _ rfl
        · refine hR.bind ?_ fun x => ih _ hafter _ _ _ rfl
          exact scope_related hR hc (fun spot x => ih _ hblock _ _ _ rfl)
            _ _ _ _ _

end Related

/-- With steady calls a scope is as steady as its block. -/
theorem PerElement.steady_scope {calls : Callables σ} (hc : calls.Steady)
    {block : Spot → Cell → Act σ Cell}
    (hblock : ∀ spot c, (block spot c).Steady) (form : ScopeForm)
    (target : Option String) (elements : List Value) (spot : Spot) (c : Cell) :
    (scope calls form target elements block spot c).Steady :=
  @scope_related σ (fun x _ => x.Steady) calls calls Act.steady_closed hc block
    block hblock form target elements spot c

/-- With steady calls a block is steady. -/
theorem PerElement.steady_run {calls : Callables σ} (hc : calls.Steady)
    (lines : List (Placed Step)) (spot : Spot) (c : Cell) :
    (run calls lines spot c).Steady :=
  run_related Act.steady_closed hc (fun _ _ _ => rfl) lines spot c

/-! ## Single lines

The recursion is read line by line. A line that opens no scope is followed by
the others on the same branch; behind one that opens a scope the block is cut
off, and what is left follows on the same branch too. -/

namespace PerElement

variable {calls : Callables σ} {x : Placed Step} {action : Action}

/-- An empty line is passed over. -/
theorem run_blank (hx : x.content.isBlank = true) (rest : List (Placed Step)) :
    run calls (x :: rest) = run calls rest := by
  funext spot c
  rw [run]
  cases hc : x.content with
  | blank => rfl
  | act action => rw [hc] at hx; cases hx
  | invalid e => rw [hc] at hx; cases hx

/-- Any line but an exit is executed first. -/
theorem run_act (hx : x.content = .act action) (hexit : action ≠ .exit)
    (rest : List (Placed Step)) (spot : Spot) (c : Cell) :
    run calls (x :: rest) spot c = (do
      let outcome ← action.execute calls (spot.scope c)
      match action.opened? with
      | none => run calls rest spot (c.settle outcome)
      | some (form, target) =>
        let block := run calls (rest.takeWhile (standsIn x.depth))
        let c ← scope calls form target (outcome.elements.getD []) block spot
            (c.settle outcome)
        run calls (rest.dropWhile (standsIn x.depth)) spot c) := by
  rw [run, hx]
  cases action with
  | exit => exact absurd rfl hexit
  | _ => rfl

/-- One that opens no scope is executed, and then come the others. -/
theorem run_of_not_opened (hx : x.content = .act action)
    (hexit : action ≠ .exit) (hopened : action.opened? = none)
    (rest : List (Placed Step)) :
    run calls (x :: rest) = fun spot c => (do
      let outcome ← action.execute calls (spot.scope c)
      return c.settle outcome) >>= run calls rest spot := by
  funext spot c
  rw [run_act hx hexit, hopened, bind_assoc]
  simp only [pure_bind]

/-- One that opens a scope is executed, its block is run on the elements, and
then come the lines behind the block. -/
theorem run_of_opened (hx : x.content = .act action) {form : ScopeForm}
    {target : Option String} (hopened : action.opened? = some (form, target))
    (rest : List (Placed Step)) :
    run calls (x :: rest) = fun spot c => (do
      let outcome ← action.execute calls (spot.scope c)
      scope calls form target (outcome.elements.getD [])
        (run calls (rest.takeWhile (standsIn x.depth))) spot (c.settle outcome))
        >>=
      run calls (rest.dropWhile (standsIn x.depth)) spot := by
  have hexit : action ≠ .exit := by
    rintro rfl
    cases hopened
  funext spot c
  rw [run_act hx hexit, hopened, bind_assoc]

end PerElement

/-! ## Exits

An exit in no scope is not deeper than any line, so it never stands in a block,
and no block reaches beyond it. Whatever is cut out of the lines before it is
the same with it or without. -/

/-- A list is cut at the latest at an element that does not belong to it. -/
theorem takeWhile_append_cons_of_neg {α : Type} {p : α → Bool} {a : α}
    (ha : p a = false) (l l' : List α) :
    (l ++ a :: l').takeWhile p = l.takeWhile p := by
  induction l with
  | nil => exact List.takeWhile_cons_of_neg (by simp [ha])
  | cons b l ih =>
    rw [List.cons_append, List.takeWhile_cons, List.takeWhile_cons, ih]

/-- What is left behind the cut. -/
theorem dropWhile_append_cons_of_neg {α : Type} {p : α → Bool} {a : α}
    (ha : p a = false) (l l' : List α) :
    (l ++ a :: l').dropWhile p = l.dropWhile p ++ a :: l' := by
  induction l with
  | nil => exact List.dropWhile_cons_of_neg (by simp [ha])
  | cons b l ih =>
    rw [List.cons_append, List.dropWhile_cons, List.dropWhile_cons, ih]
    split <;> rfl

namespace PerElement

variable {calls : Callables σ} {x y : Placed Step}

/-- An exit ends a block. -/
theorem run_exit (hx : x.content = .act .exit) (rest : List (Placed Step))
    (spot : Spot) (c : Cell) : run calls (x :: rest) spot c = pure c := by
  rw [run, hx]

/-- An exit in no scope stands in no block. -/
theorem not_standsIn_of_exit (hx : x.content = .act .exit) (hzero : x.depth = 0)
    (depth : Nat) :
    standsIn depth x = false := by
  unfold standsIn
  rw [hx, hzero]
  rfl

/-- **What comes behind an exit in no scope is not run.** An exit at depth 0
stands in no block, and the lines end with it. So only what comes before an
exit has to be given a meaning. -/
theorem run_append_exit (hx : x.content = .act .exit) (hzero : x.depth = 0)
    (before after : List (Placed Step)) (spot : Spot) (c : Cell) :
    run calls (before ++ x :: after) spot c = run calls before spot c := by
  induction hn : before.length
    using Nat.strongRecOn generalizing before spot c with
  | _ n ih =>
    cases before with
    | nil => rw [List.nil_append, run_exit hx, run]
    | cons y rest =>
      rw [List.cons_append, run, run]
      have hlt : rest.length < n := hn ▸ Nat.lt_succ_self _
      have hafter : (rest.dropWhile (standsIn y.depth)).length < n :=
        Nat.lt_of_le_of_lt (List.dropWhile_sublist _).length_le hlt
      -- The exit ends the block of a scope at the latest, so what is cut off
      -- is the same.
      have hout := not_standsIn_of_exit hx hzero y.depth
      rw [takeWhile_append_cons_of_neg hout, dropWhile_append_cons_of_neg hout]
      -- Whatever the line does, the lines it goes on with are run without what
      -- is behind the exit.
      have hskip : ∀ spot c, run calls (rest ++ x :: after) spot c
          = run calls rest spot c :=
        fun spot c => ih _ hlt rest spot c rfl
      have hpast : ∀ spot c,
          run calls (rest.dropWhile (standsIn y.depth) ++ x :: after) spot c
          = run calls (rest.dropWhile (standsIn y.depth)) spot c :=
        fun spot c => ih _ hafter _ spot c rfl
      simp only [hskip, hpast]

end PerElement

end StreamScript
