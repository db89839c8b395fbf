import StreamScript.Run.Program

/-!
# What a run does, one primitive at a time

Runs are written in `do` notation over two stacks of effects: an `Act` may
fail and changes the world, a `Drive` also advances. A proof about them wants
to know, for a given world, what the result is and what is left of the world.
That is `Act.exec` and `Drive.exec`, and this module says what either of them
is on every primitive the runs are made of. Nothing below unfolds the stacks
again.

Failing is not undoing: an error comes together with the progress and the
world that it leaves. `Drive.exec_bind` and `Drive.exec_blame` are where that
can be seen.
-/

namespace StreamScript

variable {σ α β : Type}

/-! ## Acts

An act has a world, and either comes to something or to an error; the world
after it is there in both cases. -/

namespace Act

/-- **What an act does in a world**: its result, and the world after it. -/
def exec (act : Act σ α) (w : World σ) : Except RunError α × World σ :=
  act.run.run w

@[simp] theorem exec_pure (a : α) (w : World σ) :
    (pure a : Act σ α).exec w = (.ok a, w) := rfl

@[simp] theorem exec_throw (e : RunError) (w : World σ) :
    (throw e : Act σ α).exec w = (.error e, w) := rfl

/-- An operation on values does not look at the world. -/
@[simp] theorem exec_lift (r : Except RunError α) (w : World σ) :
    (liftM r : Act σ α).exec w = (r, w) := rfl

/-- Acts one after the other: the first error ends them. -/
theorem exec_bind (act : Act σ α) (f : α → Act σ β) (w : World σ) :
    (act >>= f).exec w =
      match act.exec w with
      | (.ok a, w') => (f a).exec w'
      | (.error e, w') => (.error e, w') := by
  show ExceptT.bindCont f (act w).1 (act w).2 = _
  rcases h : act w with ⟨_ | _, w'⟩ <;>
      simp only [exec, ExceptT.run, StateT.run, h] <;> rfl

/-- If acts one after the other succeed, each of them does. -/
theorem exec_bind_eq_ok {act : Act σ α} {f : α → Act σ β} {w w₂ : World σ}
    {b : β} :
    (act >>= f).exec w = (.ok b, w₂) ↔
      ∃ a w₁, act.exec w = (.ok a, w₁) ∧ (f a).exec w₁ = (.ok b, w₂) := by
  rw [exec_bind]
  obtain ⟨_ | a, w₁⟩ := act.exec w
  · simp
  · exact ⟨fun h => ⟨a, w₁, rfl, h⟩, by rintro ⟨_, _, ⟨⟩, h⟩; exact h⟩

/-- What is made of a list element by element has been made of its elements. -/
theorem exists_of_mem_mapM {f : α → Act σ β} {l : List α} {bs : List β}
    {w w' : World σ} (h : (l.mapM f).exec w = (.ok bs, w')) {b : β}
    (hb : b ∈ bs) :
    ∃ a ∈ l, ∃ v v', (f a).exec v = (.ok b, v') := by
  induction l generalizing bs w with
  | nil =>
    cases h
    cases hb
  | cons a l ih =>
    rw [List.mapM_cons] at h
    obtain ⟨b₀, w₁, h₀, h⟩ := exec_bind_eq_ok.1 h
    obtain ⟨bs₀, w₂, h₁, h⟩ := exec_bind_eq_ok.1 h
    cases h
    obtain rfl | hb := List.mem_cons.1 hb
    · exact ⟨a, List.mem_cons_self, w, w₁, h₀⟩
    · obtain ⟨a', ha', v, v', h'⟩ := ih h₁ hb
      exact ⟨a', List.mem_cons_of_mem a ha', v, v', h'⟩

/-- As much is made of a list as there is in it. -/
theorem length_of_mapM {f : α → Act σ β} {l : List α} {bs : List β}
    {w w' : World σ} (h : (l.mapM f).exec w = (.ok bs, w')) :
    bs.length = l.length := by
  induction l generalizing bs w with
  | nil =>
    cases h
    rfl
  | cons a l ih =>
    rw [List.mapM_cons] at h
    obtain ⟨b₀, w₁, -, h⟩ := exec_bind_eq_ok.1 h
    obtain ⟨bs₀, w₂, hrest, h⟩ := exec_bind_eq_ok.1 h
    cases h
    exact congrArg Nat.succ (ih hrest)

/-- What is made of every element of a list, if that does nothing else. -/
theorem exec_mapM_eq_ok {f : α → Act σ β} {g : α → β} {l : List α}
    (h : ∀ a ∈ l, ∀ w, (f a).exec w = (.ok (g a), w)) (w : World σ) :
    (l.mapM f).exec w = (.ok (l.map g), w) := by
  induction l with
  | nil => rfl
  | cons a l ih =>
    obtain ⟨ha, hl⟩ := List.forall_mem_cons.1 h
    rw [List.mapM_cons, exec_bind, ha w]
    dsimp only
    rw [exec_bind, ih hl]
    rfl

/-- The world only grows older while a request is answered. -/
theorem exec_request (ask : σ → Reply σ α) (w : World σ) :
    (Act.request ask).exec w =
      ((ask w.host).answer.mapError .host,
        { host := (ask w.host).state,
          generation := w.generation + (ask w.host).begun }) := rfl

end Act

/-! ## Drives

A drive has a progress besides: the machine and the line that has been reached.
An error leaves it as far as it has come. -/

namespace Drive

/-- **What a drive does** with a progress and a world: its result, how far the
run has come, and the world after it. -/
def exec (d : Drive σ α) (p : Progress) (w : World σ) :
    Except RunError α × Progress × World σ :=
  let ((r, p), w) := (d.run.run p).run w
  (r, p, w)

@[simp] theorem exec_pure (a : α) (p : Progress) (w : World σ) :
    (pure a : Drive σ α).exec p w = (.ok a, p, w) := rfl

@[simp] theorem exec_throw (e : RunError) (p : Progress) (w : World σ) :
    (throw e : Drive σ α).exec p w = (.error e, p, w) := rfl

@[simp] theorem exec_machine (p : Progress) (w : World σ) :
    (machine : Drive σ Machine).exec p w = (.ok p.machine, p, w) := rfl

@[simp] theorem exec_become (m : Machine) (p : Progress) (w : World σ) :
    (become m : Drive σ Unit).exec p w = (.ok (), { p with machine := m }, w) :=
      rfl

@[simp] theorem exec_arrive (line : Nat) (p : Progress) (w : World σ) :
    (arrive line : Drive σ Unit).exec p w
      = (.ok (), { p with lastLine := line }, w) := rfl

@[simp] theorem exec_pause (host : Host σ) (p : Progress) (w : World σ) :
    (pause host).exec p w = (.ok (), p, w.pause host) := rfl

@[simp] theorem exec_perform (act : Act σ α) (p : Progress) (w : World σ) :
    (perform act).exec p w = ((act.exec w).1, p, (act.exec w).2) := rfl

@[simp] theorem exec_isSuperseded (host : Host σ) (token : Option Nat)
    (p : Progress) (w : World σ) :
    (isSuperseded host token).exec p w =
      (.ok (token.any (· != (w.pause host).generation)), p, w.pause host) := rfl

/-- Drives one after the other: the first error ends them, and leaves what has
been done until then. -/
theorem exec_bind (d : Drive σ α) (f : α → Drive σ β) (p : Progress)
    (w : World σ) :
    (d >>= f).exec p w =
      match d.exec p w with
      | (.ok a, p', w') => (f a).exec p' w'
      | (.error e, p', w') => (.error e, p', w') := by
  rcases h : d p w with ⟨⟨_ | _, p'⟩, w'⟩ <;>
    simp only [exec, ExceptT.run, StateT.run, h, bind, ExceptT.bind, ExceptT.mk,
      StateT.bind, ExceptT.bindCont]
  rfl

/-- An error that has been put down to a line. -/
theorem exec_blame (line : Nat) (d : Drive σ α) (p : Progress) (w : World σ) :
    (blame line d).exec p w =
      match d.exec p w with
      | (.ok a, p', w') => (.ok a, p', w')
      | (.error e, p', w') => (.error e, { p' with lastLine := line }, w') := by
  rcases h : d p w with ⟨⟨_ | _, p'⟩, w'⟩
  all_goals
    simp only [exec, ExceptT.run, StateT.run, blame, tryCatch, tryCatchThe,
      MonadExceptOf.tryCatch, ExceptT.tryCatch, ExceptT.mk, bind,
      StateT.bind, h]
    rfl

/-- If drives one after the other succeed, each of them does. -/
theorem exec_bind_eq_ok {d : Drive σ α} {f : α → Drive σ β} {p p₂ : Progress}
    {w w₂ : World σ} {b : β} :
    (d >>= f).exec p w = (.ok b, p₂, w₂) ↔
      ∃ a p₁ w₁, d.exec p w = (.ok a, p₁, w₁) ∧
        (f a).exec p₁ w₁ = (.ok b, p₂, w₂) := by
  rw [exec_bind]
  obtain ⟨_ | a, p₁, w₁⟩ := d.exec p w
  · simp
  · exact ⟨fun h => ⟨a, p₁, w₁, rfl, h⟩, by rintro ⟨_, _, _, ⟨⟩, h⟩; exact h⟩

/-! ### Lines

What a run of lines is, list by list, with the leaves from left to right. -/

theorem lines_nil (host : Host σ) (calls : Callables σ) (token : Option Nat) :
    lines host calls token [] = (do closeTo host calls 0; return .done) := rfl

theorem lines_cons (host : Host σ) (calls : Callables σ) (token : Option Nat)
    (s : Placed Step) (rest : List (Placed Step)) :
    lines host calls token (s :: rest) =
      if s.content.isBlank then lines host calls token rest
      else (do
        if ← take host calls s then
          closeTo host calls 0
          return .done
        else if ← isSuperseded host token then return .superseded
        else lines host calls token rest) := rfl

theorem take_eq (host : Host σ) (calls : Callables σ) (s : Placed Step) :
    take host calls s = (do
      closeTo host calls s.depth
      arrive s.line
      step host calls s) := rfl

end Drive

/-! ## Calls of functions, and programs

A function and a program are runs of lines from a beginning of their own. What
differs is what is made of the end: a function shows the value of its root or
an error, and a program also how far it has come. -/

/-- The state that a run of lines begins with. -/
def Progress.start (input : Value) (locals : Bindings Value) : Progress :=
  { machine := { arena := .root input locals } }

/-- The body of a function is a run of its own, of which only the value of the
root and the error remain. -/
theorem FunctionDef.exec_runWith (d : FunctionDef) (tasks : Tasks σ)
    (host : Host σ) (calls : Callables σ) (globals : Bindings Value)
    (target : Value) (arguments : List Value) (w : World σ) :
    (d.runWith tasks host calls globals target arguments).exec w =
      match (Drive.linesWith tasks host calls none d.body).exec
        (.start target (d.locals globals arguments)) w with
      | (.ok _, p, w') => (.ok p.machine.arena.output, w')
      | (.error e, _, w') => (.error e, w') := by
  simp only [Drive.exec]
  rcases h : Drive.linesWith tasks host calls none d.body
    (.start target (d.locals globals arguments)) w with ⟨⟨_ | _, p⟩, w'⟩
  all_goals
    unfold Progress.start at h ⊢
    simp only [FunctionDef.runWith, Act.exec, ExceptT.run, StateT.run, h, bind,
      ExceptT.bind, ExceptT.mk, StateT.bind, ExceptT.bindCont, liftM, monadLift,
      MonadLift.monadLift, ExceptT.lift, Functor.map, StateT.map]
    rfl

/-- The same with the leaves from left to right. -/
theorem FunctionDef.exec_run (d : FunctionDef) (host : Host σ)
    (calls : Callables σ) (globals : Bindings Value) (target : Value)
    (arguments : List Value) (w : World σ) :
    (d.run host calls globals target arguments).exec w =
      match (Drive.lines host calls none d.body).exec
        (.start target (d.locals globals arguments)) w with
      | (.ok _, p, w') => (.ok p.machine.arena.output, w')
      | (.error e, _, w') => (.error e, w') :=
  d.exec_runWith Arena.outcomes host calls globals target arguments w

/-- A run of a program is a run of its lines, and what that leaves in the
end. -/
theorem Program.run_runLinesWith (p : Program) (tasks : Tasks σ) (host : Host σ)
    (globals : Bindings Value) (lines : List (Placed Step)) (input : Value)
    (w : World σ) :
    (p.runLinesWith tasks host globals lines input).run w =
      let (r, q, w') :=
        (Drive.linesWith tasks host (p.callablesWith tasks host globals)
          (some (w.generation + 1)) lines).exec (.start input globals) w.begin
      (RunResult.of? r q, w') := rfl

theorem Program.run_runLines (p : Program) (host : Host σ)
    (globals : Bindings Value) (lines : List (Placed Step)) (input : Value)
    (w : World σ) :
    (p.runLines host globals lines input).run w =
      let (r, q, w') :=
        (Drive.lines host (p.callables host globals)
          (some (w.generation + 1)) lines).exec (.start input globals) w.begin
      (RunResult.of? r q, w') := rfl

/-! ### Calls by their name -/

section Call

variable {p : Program} {tasks : Tasks σ} {host : Host σ}
  {globals : Bindings Value} {allowance : Nat} {name : String} {target : Value}
  {arguments : List Value} {d : FunctionDef}

namespace Program

/-- A name that the program does not define is called as a built-in function. -/
theorem callWith_of_none (h : p.function? name = none) :
    p.callWith tasks host globals allowance name target arguments =
      match Builtin.named? name with
      | some b => b.call host target arguments
      | none => throw (.unknownFunction name) := by
  unfold callWith
  generalize p.function? name = found at h ⊢
  subst h
  rfl

/-- A function of the program is not entered if nothing is left of the
allowance. -/
theorem callWith_zero_of_some (h : p.function? name = some d) :
    p.callWith tasks host globals 0 name target arguments = (do
      checkArity name 0 d.params.length arguments.length
      throw (.recursion d.name callLimit)) := by
  unfold callWith
  generalize p.function? name = found at h ⊢
  subst h
  rfl

/-- Otherwise its body is run, with less of the allowance for the calls in
it. -/
theorem callWith_succ_of_some (h : p.function? name = some d) :
    p.callWith tasks host globals (allowance + 1) name target arguments = (do
      checkArity name 0 d.params.length arguments.length
      d.runWith tasks host
        ⟨p.isNullary, p.callWith tasks host globals allowance⟩ globals target
        arguments) := by
  rw [callWith, h]

theorem call_of_none (h : p.function? name = none) :
    p.call host globals allowance name target arguments =
      match Builtin.named? name with
      | some b => b.call host target arguments
      | none => throw (.unknownFunction name) :=
  callWith_of_none h

theorem call_zero_of_some (h : p.function? name = some d) :
    p.call host globals 0 name target arguments = (do
      checkArity name 0 d.params.length arguments.length
      throw (.recursion d.name callLimit)) :=
  callWith_zero_of_some h

theorem call_succ_of_some (h : p.function? name = some d) :
    p.call host globals (allowance + 1) name target arguments = (do
      checkArity name 0 d.params.length arguments.length
      d.run host ⟨p.isNullary, p.call host globals allowance⟩ globals target
        arguments) :=
  callWith_succ_of_some h

end Program

end Call

end StreamScript
