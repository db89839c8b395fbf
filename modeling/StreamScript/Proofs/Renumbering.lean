import StreamScript.Proofs.Closure
import StreamScript.Proofs.Reach
import StreamScript.Proofs.Relayout
import StreamScript.Proofs.Schedules

/-!
# Runs of scripts laid out anew

A run knows its lines by their numbers and by nothing else. It keeps them
beside the scopes it has opened, names one when it fails, and says which it has
reached; it computes nothing from them. So a program with other numbers runs as
before, and says other numbers where it says any
(`Drive.renumbers_linesWith`). Of the indentations it sees only the depths that
they amount to, and of empty lines nothing.

Two scripts that differ in their layout alone therefore do the same
(`layout_is_of_no_matter`): whatever the input, the variables and the host, and
whatever other runs begin meanwhile.

## Which error is the same

Where several leaves of a line fail, the error of the run is that of the task
that fails first, and a script cannot say which one that is. So "the same error"
is a statement about two runs whose tasks are done in the same order. It holds
in every order (`Program.runIn_of_spoken`), in the lines of the script and in
those of every function that is called, and needs nothing of the host; the lines
of the two programs correspond one to one, so the moments at which their tasks
are begun are the same.

Two runs in different orders have in common what no order can change
(`Program.runIn_of_spoken_in_any_order`): the output, whether the run is
complete, and the line that it has reached. The error of the one is still an
error of the other, on the schedule of the one.
-/

namespace StreamScript

variable {σ α β : Type} {ρ f : Nat → Nat}

/-! ## Errors and acts

Of all errors only one kind holds the number of a line: that of a line which
fits no form, and it holds its own. Every other error is about values or names,
and the line it is blamed on is kept beside it. So acts, which do not fail with
the former, say the same whatever the numbers are; the two that are compared
may still fail with it through the calls in them. -/

/-- An error of a run with other numbers of lines. -/
def RunError.renumbered (ρ : Nat → Nat) : RunError → RunError
  | .invalid e => .invalid (e.renumbered ρ)
  | e => e

/-- Other errors hold no line. -/
theorem RunError.renumbered_eq_self {e : RunError} (h : e.isInvalid = false) :
    e.renumbered ρ = e := by
  cases e with
  | invalid => cases h
  | _ => rfl

/-- **Acts that do the same** but for the numbers of lines. The result is the
same, the world is the same, and only an error may hold another number. Nothing
is asked of the host: both acts are performed in the same world. -/
def Act.Renumbers (ρ : Nat → Nat) (x y : Act σ α) : Prop :=
  ∀ w, y.exec w = ((x.exec w).1.mapError (RunError.renumbered ρ), (x.exec w).2)

theorem Act.renumbers_closed (ρ : Nat → Nat) :
    Closed fun x y : Act σ _ => Renumbers ρ x y where
  pure _ _ := rfl
  throw e he w := by
    rw [exec_throw]
    exact congrArg (fun e => (Except.error e, w))
      (RunError.renumbered_eq_self he).symm
  bind {_ _ x y f g} hxy hfg w := by
    rw [exec_bind, exec_bind, hxy w]
    rcases x.exec w with ⟨e | a, w'⟩
    · rfl
    · exact hfg a w'

/-! ## Drives

A machine holds the number of a line beside each scope that is open, and the
place that the run has come to is a number as well. Two drives are compared
from such a place and the same place with other numbers: they are to come to
the same, but for the numbers, and to leave the world alike. -/

/-- An open scope with another number of its line. -/
def OpenScope.renumbered (ρ : Nat → Nat) (s : OpenScope) : OpenScope :=
  { s with line := ρ s.line }

/-- A machine with other numbers of lines. -/
def Machine.renumbered (ρ : Nat → Nat) (m : Machine) : Machine :=
  { m with scopes := m.scopes.map (OpenScope.renumbered ρ) }

/-- The place a run has come to, with other numbers of lines. -/
def Progress.renumbered (ρ : Nat → Nat) (p : Progress) : Progress :=
  { machine := p.machine.renumbered ρ, lastLine := ρ p.lastLine }

theorem Machine.after_renumbered (ρ : Nat → Nat) (m : Machine) (line : Nat)
    (action : Action) (outcomes : List Outcome) :
    (m.renumbered ρ).after (ρ line) action outcomes
      = (m.after line action outcomes).renumbered ρ := by
  unfold Machine.after
  cases action.opened? <;> rfl

namespace Drive

/-- **Drives that do the same** but for the numbers of lines, with results that
`g` takes from the one to the other. Here the numbers occur in three places: in
the error, in the scopes that are open, and in the line a run has come to. -/
def Renumbers (ρ : Nat → Nat) (g : α → β) (d : Drive σ α) (d' : Drive σ β) :
    Prop :=
  ∀ p w, d'.exec (p.renumbered ρ) w =
    (((d.exec p w).1.map g).mapError (RunError.renumbered ρ),
      (d.exec p w).2.1.renumbered ρ,
      (d.exec p w).2.2)

namespace Renumbers

theorem pure (g : α → β) (a : α) :
    Renumbers (σ := σ) ρ g (Pure.pure a) (Pure.pure (g a)) :=
  fun _ _ => rfl

/-- Sequences are compared one drive after the other. The result of the first
may be renumbered as well, so that what comes behind it is compared at a result
and the same result with other numbers. -/
theorem bind {γ δ : Type} {g : α → β} {k : γ → δ} {d : Drive σ α}
    {d' : Drive σ β} {F : α → Drive σ γ} {F' : β → Drive σ δ}
    (hd : Renumbers ρ g d d') (hF : ∀ a, Renumbers ρ k (F a) (F' (g a))) :
    Renumbers ρ k (d >>= F) (d' >>= F') := by
  intro p w
  rw [exec_bind, exec_bind, hd p w]
  rcases d.exec p w with ⟨e | a, q, v⟩
  · rfl
  · exact hF a q v

theorem machine : Renumbers (σ := σ) ρ (Machine.renumbered ρ) machine machine :=
  fun _ _ => rfl

theorem become (m : Machine) :
    Renumbers (σ := σ) ρ id (become m) (become (m.renumbered ρ)) :=
  fun _ _ => rfl

theorem arrive (line : Nat) : Renumbers (σ := σ) ρ id (arrive line)
    (arrive (ρ line)) :=
  fun _ _ => rfl

theorem pause (host : Host σ) : Renumbers ρ id (pause host) (pause host) :=
  fun _ _ => rfl

theorem perform {x y : Act σ α} (h : x.Renumbers ρ y) :
    Renumbers ρ id (perform x) (perform y) := by
  intro p w
  rw [exec_perform, exec_perform, h w]
  rcases x.exec w with ⟨_ | _, v⟩ <;> rfl

/-- The blame for an error is put on a line, and the other drive puts it on the
corresponding one. -/
theorem blame {d : Drive σ α} {d' : Drive σ β} {g : α → β}
    (h : Renumbers ρ g d d') (line : Nat) :
    Renumbers ρ g (blame line d) (blame (ρ line) d') := by
  intro p w
  rw [exec_blame, exec_blame, h p w]
  rcases d.exec p w with ⟨_ | _, q, v⟩ <;> rfl

end Renumbers

section Lines

variable {tasks : Tasks σ} {calls calls' : Callables σ} {host : Host σ}
    {token : Option Nat}

section

variable (hT : Tasks.Related (Act.Renumbers ρ) tasks tasks)
  (hc : Callables.Related (Act.Renumbers ρ) calls calls')
include hc

theorem renumbers_foldParent (s : OpenScope) (parent : Nat) :
    Renumbers ρ id (foldParent calls s parent)
      (foldParent calls' (s.renumbered ρ) parent) := by
  have hR := Act.renumbers_closed (σ := σ) ρ
  refine Renumbers.machine.bind fun m => ?_
  refine (Renumbers.perform (hR.lift (m.arena.fits_yieldsOf parent))).bind
    fun yields => ?_
  refine (Renumbers.become _).bind fun _ => ?_
  exact (Renumbers.perform (Arena.folded_related hR hc _ _ _ _)).bind fun v =>
    Renumbers.become _

/-- A scope is folded into its parents by a form that knows no line. -/
theorem renumbers_foldParents (s : OpenScope) (parents : List Nat) :
    Renumbers ρ id (foldParents calls s parents)
      (foldParents calls' (s.renumbered ρ) parents) := by
  induction parents with
  | nil => exact .pure id ()
  | cons parent parents ih =>
    exact (renumbers_foldParent hc s parent).bind fun _ => ih

theorem renumbers_collect (s : OpenScope) :
    Renumbers ρ id (collect calls s) (collect calls' (s.renumbered ρ)) :=
  (renumbers_foldParents hc s s.parents).bind fun _ =>
    Renumbers.machine.bind fun _ => .become _

theorem renumbers_closeScope (host : Host σ) :
    Renumbers ρ id (closeScope host calls) (closeScope host calls') := by
  refine Renumbers.machine.bind fun m => ?_
  obtain ⟨arena, _ | ⟨s, outer⟩⟩ := m
  · exact .pure id ()
  · exact (Renumbers.pause host).bind fun _ =>
      (Renumbers.become _).bind fun _ =>
      (renumbers_collect hc s).blame s.line

theorem renumbers_closeScopes (host : Host σ) (n : Nat) :
    Renumbers ρ id (closeScopes host calls n) (closeScopes host calls' n) := by
  induction n with
  | zero => exact .pure id ()
  | succ n ih => exact (renumbers_closeScope hc host).bind fun _ => ih

/-- **Closing scopes.** There are as many of them. How many are to be closed is
counted, and renumbering does not change that. -/
theorem renumbers_closeTo (host : Host σ) (depth : Nat) :
    Renumbers ρ id (closeTo host calls depth) (closeTo host calls' depth) := by
  refine Renumbers.machine.bind fun m => ?_
  have hlength : (m.renumbered ρ).scopes.length = m.scopes.length :=
    List.length_map _
  rw [hlength]
  exact renumbers_closeScopes hc host _

include hT

/-- **Executing a line** that has moved. What a line does on the leaves does
not mention its number; only a line that fits no form does, and it fails with
its own. -/
theorem renumbers_stepWith (host : Host σ) (x : Placed Step) :
    Renumbers ρ id (stepWith tasks host calls x)
      (stepWith tasks host calls' (x.moved f ρ (Step.renumbered ρ))) := by
  obtain ⟨_ | action | e, tab, depth, line⟩ := x
  · exact .pure id false
  · refine (Renumbers.pause host).bind fun _ =>
      Renumbers.machine.bind fun m => ?_
    refine (Renumbers.perform (hT hc m.arena action)).bind fun outcomes => ?_
    have hafter :
        Renumbers ρ id (Drive.become (σ := σ) (m.after line action outcomes))
        (Drive.become ((m.renumbered ρ).after (ρ line) action outcomes)) := by
      rw [Machine.after_renumbered]
      exact .become _
    exact hafter.bind fun _ => .pure id _
  · exact fun _ _ => rfl

theorem renumbers_takeWith (host : Host σ) (x : Placed Step) :
    Renumbers ρ id (takeWith tasks host calls x)
      (takeWith tasks host calls' (x.moved f ρ (Step.renumbered ρ))) :=
  (renumbers_closeTo hc host x.depth).bind fun _ =>
    (Renumbers.arrive x.line).bind fun _ =>
    renumbers_stepWith hT hc host x

/-- **A run of lines** that have moved. Lines that correspond stand at the same
place in both lists, and the depths, by which scopes are closed, are the same.
-/
theorem renumbers_linesWith (host : Host σ) (token : Option Nat)
    (l : List (Placed Step)) :
    Renumbers ρ id (linesWith tasks host calls token l)
      (linesWith tasks host calls' token
        (l.map (Placed.moved f ρ (Step.renumbered ρ)))) := by
  have hclose :
      Renumbers (σ := σ) ρ id (do closeTo host calls 0; return Ending.done)
      (do closeTo host calls' 0; return Ending.done) :=
    (renumbers_closeTo hc host 0).bind fun _ => .pure id _
  have hstale : Renumbers ρ id (isSuperseded host token)
      (isSuperseded host token) := fun _ _ => rfl
  induction l with
  | nil => exact hclose
  | cons x l ih =>
    rw [List.map_cons, linesWith, linesWith]
    have hblank : (x.moved f ρ (Step.renumbered ρ)).content.isBlank
        = x.content.isBlank :=
      Step.isBlank_renumbered ρ x.content
    rw [hblank]
    split
    · exact ih
    · refine (renumbers_takeWith hT hc host x).bind fun exits => ?_
      cases exits with
      | true => exact hclose
      | false =>
        refine hstale.bind fun superseded => ?_
        cases superseded with
        | true => exact .pure id _
        | false => exact ih

end

/-- Empty lines are passed over. So the steps of a script with other empty
lines are compared as if there were none (`spokenSteps`). -/
theorem linesWith_spokenSteps (l : List (Placed Step)) :
    linesWith tasks host calls token (spokenSteps l)
      = linesWith tasks host calls token l := by
  induction l with
  | nil => rfl
  | cons x l ih =>
    cases hx : x.content.isBlank with
    | true =>
      rw [linesWith_blank hx, ← ih, spokenSteps,
        List.filter_cons_of_neg (by simp [hx])]
      rfl
    | false =>
      have hcons : spokenSteps (x :: l) = x :: spokenSteps l :=
        List.filter_cons_of_pos (by simp [hx])
      rw [hcons, linesWith, linesWith, ih]

theorem lines_spokenSteps (l : List (Placed Step)) :
    lines host calls token (spokenSteps l) = lines host calls token l :=
  linesWith_spokenSteps l

/-- **A run of what another program says**, moved. Empty lines are taken out of
both lists first, since a run passes them over without a pause and without
noting their numbers. -/
theorem renumbers_linesWith_of_spoken
    (hT : Tasks.Related (Act.Renumbers ρ) tasks tasks)
    (hc : Callables.Related (Act.Renumbers ρ) calls calls') (host : Host σ)
    (token : Option Nat) {l l' : List (Placed Step)}
    (h : spokenSteps l' =
      (spokenSteps l).map (Placed.moved f ρ (Step.renumbered ρ))) :
    Renumbers ρ id (linesWith tasks host calls token l)
      (linesWith tasks host calls' token l') := by
  rw [← linesWith_spokenSteps l, ← linesWith_spokenSteps l', h]
  exact renumbers_linesWith hT hc host token (spokenSteps l)

end Lines

end Drive

/-! ## Calls of functions, and programs

A run begins in front of its first line, at number 0, and so does the body of
every function that is called. It is the only number that a run makes up
itself, and the renumbering has to leave it as it is. -/

theorem Progress.start_renumbered (hρ : ρ 0 = 0) (input : Value)
    (locals : Bindings Value) :
    (start input locals).renumbered ρ = start input locals := by
  unfold Progress.renumbered start
  rw [hρ]
  rfl

/-- The name of a function is among what it says, and so are its parameters. -/
theorem FunctionDef.name_of_spoken {d d' : FunctionDef}
    (h : d'.spoken = d.spoken.moved f ρ) :
    d'.name = d.name := by
  have hname := congrArg name h
  exact hname

theorem FunctionDef.params_of_spoken {d d' : FunctionDef}
    (h : d'.spoken = d.spoken.moved f ρ) :
    d'.params = d.params := by
  have hparams := congrArg params h
  exact hparams

/-- **The body of a function** that has moved does the same. A call begins at
line 0, with a machine of its own, so `ρ` must leave 0 alone. The line it comes
to is forgotten when the call is done. -/
theorem FunctionDef.renumbers_runWith (hρ : ρ 0 = 0) {tasks : Tasks σ}
    (hT : Tasks.Related (Act.Renumbers ρ) tasks tasks)
    {calls calls' : Callables σ}
    (hc : Callables.Related (Act.Renumbers ρ) calls calls') {d d' : FunctionDef}
    (h : d'.spoken = d.spoken.moved f ρ) (host : Host σ)
    (globals : Bindings Value) (target : Value) (arguments : List Value) :
    Act.Renumbers ρ (d.runWith tasks host calls globals target arguments)
      (d'.runWith tasks host calls' globals target arguments) := by
  intro w
  have hlocals : d'.locals globals arguments = d.locals globals arguments := by
    unfold FunctionDef.locals
    rw [params_of_spoken h]
  have hlines := Drive.renumbers_linesWith_of_spoken hT hc host none
    (congrArg FunctionDef.body h) (.start target (d.locals globals arguments)) w
  rw [exec_runWith, exec_runWith, hlocals,
    ← Progress.start_renumbered hρ, hlines, Progress.start_renumbered hρ]
  rcases (Drive.linesWith tasks host calls none d.body).exec
    (.start target (d.locals globals arguments)) w with ⟨e | _, q, v⟩ <;> rfl

/-- The result of a run with other numbers of lines. -/
def RunResult.renumbered (ρ : Nat → Nat) (r : RunResult) : RunResult :=
  { r with lastLine := ρ r.lastLine, error := r.error.map (RunError.renumbered ρ) }

theorem RunResult.isComplete_renumbered (ρ : Nat → Nat) (r : RunResult) :
    (r.renumbered ρ).isComplete = r.isComplete := by
  unfold isComplete renumbered
  cases r.error <;> rfl

/-- A run that fails with an error of another kind fails with that error, at the
other line. -/
theorem RunResult.failure_renumbered {o : Option RunResult} {n : Nat}
    {e : RunError} (he : e.isInvalid = false)
    (h : o.map (fun r => (r.lastLine, r.error)) = some (n, some e)) :
    (o.map (renumbered ρ)).map (fun r => (r.lastLine, r.error))
      = some (ρ n, some e) := by
  obtain ⟨r, rfl, hfields⟩ := Option.map_eq_some_iff.1 h
  obtain ⟨hline, herror⟩ := Prod.mk.inj hfields
  show some (ρ r.lastLine, r.error.map (RunError.renumbered ρ)) = _
  rw [hline, herror, Option.map_some, RunError.renumbered_eq_self he]

namespace Program

variable {p p' : Program}

/-- A name is looked up among the functions without regard to where they stand.
-/
theorem isNullary_of_spoken
    (h : p'.spoken = p.spoken.map (Placed.moved f ρ (Item.moved f ρ))) :
    p'.isNullary = p.isNullary := by
  funext name
  have hfunction := congrArg Option.isSome (function?_of_spoken h name)
  rw [Option.isSome_map, Option.isSome_map] at hfunction
  unfold isNullary
  rw [hfunction]

/-- A built-in function knows no lines. -/
theorem renumbers_builtin (ρ : Nat → Nat) (host : Host σ) (b : Builtin)
    (target : Value) (arguments : List Value) :
    Act.Renumbers ρ (b.call host target arguments)
    (b.call host target arguments) := by
  have hR := Act.renumbers_closed (σ := σ) ρ
  have hrequest : ∀ {γ : Type} (ask : σ → Reply σ γ),
      Act.Renumbers ρ (Act.request ask) (Act.request ask) := by
    intro γ ask w
    rw [Act.exec_request]
    cases (ask w.host).answer <;> rfl
  exact b.call_related hR.ordinarily
    ⟨fun label v => hrequest _, hrequest _, fun name => hrequest _⟩ target
    arguments

section Moved

variable {tasks : Tasks σ} (hT : Tasks.Related (Act.Renumbers ρ) tasks tasks)
  (hρ : ρ 0 = 0)
  (h : p'.spoken = p.spoken.map (Placed.moved f ρ (Item.moved f ρ)))
include hT hρ h

/-- **Calls of functions** do the same, however deep they nest. The induction
is on the allowance: the calls within a call have less of it. -/
theorem renumbers_callWith (host : Host σ) (globals : Bindings Value)
    (allowance : Nat) :
    Callables.Related (Act.Renumbers ρ)
      ⟨p.isNullary, p.callWith tasks host globals allowance⟩
      ⟨p'.isNullary, p'.callWith tasks host globals allowance⟩ := by
  have hR := Act.renumbers_closed (σ := σ) ρ
  have hnullary : ∀ name, p.isNullary name = p'.isNullary name := fun name => by
    rw [isNullary_of_spoken h]
  have hnone : ∀ {name}, p.function? name = none →
      p'.function? name = none := by
    intro name hname
    have hfunction := function?_of_spoken h name
    rw [hname] at hfunction
    exact Option.map_eq_none_iff.1 hfunction
  have hsome : ∀ {name d}, p.function? name = some d →
      ∃ d', p'.function? name = some d' ∧ d'.spoken = d.spoken.moved f ρ := by
    intro name d hname
    have hfunction := function?_of_spoken h name
    rw [hname] at hfunction
    exact Option.map_eq_some_iff.1 hfunction
  have hbuiltin : ∀ {allowance name target arguments}, p.function? name = none →
      Act.Renumbers ρ
        (p.callWith tasks host globals allowance name target arguments)
        (p'.callWith tasks host globals allowance name target arguments) := by
    intro allowance name target arguments hname
    rw [callWith_of_none hname, callWith_of_none (hnone hname)]
    split
    · exact renumbers_builtin ρ host _ target arguments
    · exact hR.throw _ rfl
  induction allowance with
  | zero =>
    refine ⟨hnullary, fun name target arguments => ?_⟩
    cases hname : p.function? name with
    | none => exact hbuiltin hname
    | some d =>
      obtain ⟨d', hname', hd⟩ := hsome hname
      dsimp only
      rw [callWith_zero_of_some hname, callWith_zero_of_some hname',
        FunctionDef.name_of_spoken hd, FunctionDef.params_of_spoken hd]
      exact hR.bind (hR.lift (ordinary_checkArity _ _ _ _).fits) fun _ =>
        hR.throw _ rfl
  | succ allowance ih =>
    refine ⟨hnullary, fun name target arguments => ?_⟩
    cases hname : p.function? name with
    | none => exact hbuiltin hname
    | some d =>
      obtain ⟨d', hname', hd⟩ := hsome hname
      dsimp only
      rw [callWith_succ_of_some hname, callWith_succ_of_some hname',
        FunctionDef.params_of_spoken hd]
      exact hR.bind (hR.lift (ordinary_checkArity _ _ _ _).fits) fun _ =>
        FunctionDef.renumbers_runWith hρ hT ih hd host globals target arguments

/-- **A program that has moved runs as before**, and says other numbers of
lines. It is stated for any way to do the tasks of a line that keeps the
relation, so that it holds of the run from left to right and of runs on
schedule. -/
theorem runWith_of_spoken (host : Host σ) (globals : Bindings Value)
    (input : Value) (w : World σ) :
    (p'.runWith tasks host globals input).run w =
      (((p.runWith tasks host globals input).run w).1.map (RunResult.renumbered ρ),
        ((p.runWith tasks host globals input).run w).2) := by
  have hlines := Drive.renumbers_linesWith_of_spoken hT
    (renumbers_callWith hT hρ h host globals callLimit) host
    (some (w.generation + 1)) (spokenSteps_of_spoken h)
    (.start input globals) w.begin
  rw [Progress.start_renumbered hρ] at hlines
  unfold runWith
  rw [run_runLinesWith, run_runLinesWith]
  unfold callablesWith
  rw [hlines]
  rcases (Drive.linesWith tasks host
    ⟨p.isNullary, p.callWith tasks host globals callLimit⟩
    (some (w.generation + 1)) p.steps).exec (.start input globals) w.begin with
    ⟨e | _ | _, q, v⟩ <;> rfl

end Moved

/-- The same from left to right, for any host. -/
theorem run_of_spoken (hρ : ρ 0 = 0)
    (h : p'.spoken = p.spoken.map (Placed.moved f ρ (Item.moved f ρ)))
    (host : Host σ) (globals : Bindings Value) (input : Value) (w : World σ) :
    (p'.run host globals input).run w =
      (((p.run host globals input).run w).1.map (RunResult.renumbered ρ),
        ((p.run host globals input).run w).2) :=
  runWith_of_spoken (Tasks.outcomes_related (Act.renumbers_closed ρ)) hρ h host
    globals input w

/-- The same on any schedule: with the tasks in the same order there is the
same error as well. -/
theorem runIn_of_spoken (hρ : ρ 0 = 0)
    (h : p'.spoken = p.spoken.map (Placed.moved f ρ (Item.moved f ρ)))
    (s : Schedule σ) (host : Host σ) (globals : Bindings Value) (input : Value)
    (w : World σ) :
    (p'.runIn s host globals input).run w =
      (((p.runIn s host globals input).run w).1.map (RunResult.renumbered ρ),
        ((p.runIn s host globals input).run w).2) := by
  have hT : Tasks.Related (Act.Renumbers ρ) s.tasks s.tasks :=
    s.tasks_related (Act.renumbers_closed ρ) fun _ => rfl
  have hrun := runWith_of_spoken hT hρ h host.timed globals input w.timed
  exact Prod.ext (congrArg (fun o => o.1) hrun)
    (congrArg (fun o => o.2.untimed) hrun)

/-- **On two schedules** only the error may be another one, and it is one that
the program before fails with as well. Two steps lead there. On the schedule of
the second run the two programs do the same, and on the two schedules the
program before hands back the same but for the error. -/
theorem runIn_of_spoken_in_any_order (hρ : ρ 0 = 0)
    (h : p'.spoken = p.spoken.map (Placed.moved f ρ (Item.moved f ρ)))
    {host : Host σ} (hh : host.Steady) (s s' : Schedule σ)
    {globals : Bindings Value} {input : Value} {w w' : World σ}
    (hfresh : ((p.runIn s host globals input).run w).2.generation
      = w.generation + 1)
    (hfresh' : ((p'.runIn s' host globals input).run w').2.generation
      = w'.generation + 1) :
    ∃ r r₁ r', ((p.runIn s host globals input).run w).1 = some r ∧
      ((p.runIn s' host globals input).run w').1 = some r₁ ∧
      ((p'.runIn s' host globals input).run w').1 = some r' ∧
      r'.output = r.output ∧ r'.isComplete = r.isComplete ∧
      r'.lastLine = ρ r.lastLine ∧
      r'.error = r₁.error.map (RunError.renumbered ρ) := by
  have hmoved := runIn_of_spoken hρ h s' host globals input w'
  rw [hmoved] at hfresh' ⊢
  obtain ⟨r, r₁, hr, hr₁, houtput, hline, hcomplete⟩ :=
    p.run_in_any_order hh s s' hfresh hfresh'
  refine ⟨r, r₁, r₁.renumbered ρ, hr, hr₁, ?_, houtput, ?_, congrArg ρ hline, rfl⟩
  · rw [hr₁]
    rfl
  · rw [← hcomplete, RunResult.isComplete_renumbered]

end Program

/-! ## Scripts

For two scripts the renumbering is not given but found. Lines of both that are
not empty correspond in their order, and the number of the one is taken to that
of the other; a number that no such line has is taken to 0. -/

section Scripts

variable {lines lines' : List NumberedLine}

/-- Numbers taken to others, place by place. -/
def renumbering (numbers numbers' : List Nat) (n : Nat) : Nat :=
  ((numbers.zip numbers').lookup n).getD 0

/-- A number that is not among the first is taken to 0. -/
theorem renumbering_of_not_mem {numbers : List Nat} (numbers' : List Nat)
    {n : Nat} (h : n ∉ numbers) : renumbering numbers numbers' n = 0 := by
  have hnone : (numbers.zip numbers').lookup n = none := by
    refine List.lookup_eq_none_iff.2 fun pair hpair => ?_
    have hmem : pair.1 ∈ numbers := (List.of_mem_zip hpair).1
    have hne : n ≠ pair.1 := by
      rintro rfl
      exact h hmem
    exact bne_iff_ne.2 hne
  rw [renumbering, hnone]
  rfl

/-- **The numbers are taken to the others**, one by one, if none of them comes
twice. A look-up among pairs takes the first that fits, so a number that came
twice would be taken to one place only. -/
theorem map_renumbering {numbers : List Nat} (h : numbers.Nodup)
    (numbers' : List Nat) (hlength : numbers.length = numbers'.length) :
    numbers.map (renumbering numbers numbers') = numbers' := by
  induction numbers generalizing numbers' with
  | nil => exact (List.eq_nil_of_length_eq_zero hlength.symm).symm
  | cons n numbers ih =>
    obtain _ | ⟨n', numbers'⟩ := numbers'
    · cases hlength
    · obtain ⟨hn, hnodup⟩ := List.nodup_cons.1 h
      rw [List.map_cons]
      refine congrArg₂ (· :: ·) ?_ ?_
      · simp [renumbering]
      · rw [← ih hnodup numbers' (Nat.succ.inj hlength)]
        refine List.map_congr_left fun m hm => ?_
        have hne : (m == n) = false := by
          refine beq_false_of_ne ?_
          rintro rfl
          exact hn hm
        simp only [renumbering, List.zip_cons_cons, List.lookup_cons, hne,
          ih hnodup numbers' (Nat.succ.inj hlength)]

/-- **The numbers of two scripts** with equally many lines that are not empty.
No line is at 0, and none at the place of another. Lines are numbered from 1
on, and 0 is the number of a run that has not come to any line; so 0 can be
left where it is. -/
theorem exists_renumbering {script : String}
    (hlex : lexScript script = .ok lines)
    (hlength : (spokenLines lines).length = (spokenLines lines').length) :
    ∃ ρ : Nat → Nat, ρ 0 = 0 ∧ (spokenLines lines).map (fun l => ρ l.1)
      = (spokenLines lines').map Prod.fst := by
  have hnumbers : ((spokenLines lines).map Prod.fst).Sublist
      (lines.map Prod.fst) :=
    List.filter_sublist.map Prod.fst
  rw [map_fst_lexScript hlex] at hnumbers
  have hzero : 0 ∉ (spokenLines lines).map Prod.fst := fun hmem => by
    have hrange := hnumbers.subset hmem
    rw [List.mem_range'_1] at hrange
    omega
  refine ⟨renumbering ((spokenLines lines).map Prod.fst)
    ((spokenLines lines').map Prod.fst), renumbering_of_not_mem _ hzero, ?_⟩
  have hmap := map_renumbering (hnumbers.nodup List.nodup_range')
    ((spokenLines lines').map Prod.fst) (by simpa using hlength)
  rw [List.map_map] at hmap
  exact hmap

/-- **Lines that say the same at indentations in the same order have moved.**
What the two lists are told to have in common is turned from two equations into
one relation, line by line, which is what the readers are followed with. -/
theorem forall₂_movesTo {S : Set Nat}
    (hmem : ∀ l ∈ spokenLines lines, l.2.tabDepth ∈ S)
    (hlines : (spokenLines lines').map (fun l => (l.2.tokens, l.2.tabDepth))
      = (spokenLines lines).map fun l => (l.2.tokens, f l.2.tabDepth))
    (hnumbers : (spokenLines lines).map (fun l => ρ l.1)
      = (spokenLines lines').map Prod.fst) :
    List.Forall₂ (MovesTo S f ρ) (spokenLines lines) (spokenLines lines') := by
  have hsame :=
    (List.forall₂_and_left _ _).2 ⟨hmem, map_eq_map_iff_forall₂.1 hlines⟩
  refine hsame.mp ?_ (map_eq_map_iff_forall₂.1 hnumbers.symm)
  rintro l l' ⟨hl, hsame⟩ hnumber
  obtain ⟨htokens, htab⟩ := Prod.mk.inj hsame
  exact ⟨hl, htokens, htab, hnumber⟩

/-- **Scripts that say the same do the same.** Their lines that are not empty
have the same tokens, and indentations in the same order. Then they are
programs that say the same at other lines, and whatever a run of the one comes
to, a run of the other comes to.

If the tasks of their lines are done in the same order, in the scripts
themselves and in all calls of functions, nothing in the two runs is different
but the numbers of lines. So the second script may fail with an error exactly
if the first may fail with it, and in particular this is so of `Program.run`,
which does the tasks from left to right. The two runs need not be in the same
order: with a steady host, and if no other run begins, they hand back the same
on any two schedules, come to their end or fail together, and have reached the
same line. The error of the second is then one that the first fails with on the
schedule of the second. -/
theorem layout_is_of_no_matter {script script' : String}
    (hlex : lexScript script = .ok lines)
    (hlex' : lexScript script' = .ok lines')
    (hf : StrictMonoOn f {t | ∃ l ∈ spokenLines lines, l.2.tabDepth = t})
    (hlines : (spokenLines lines').map (fun l => (l.2.tokens, l.2.tabDepth))
      = (spokenLines lines).map fun l => (l.2.tokens, f l.2.tabDepth)) :
    ∃ (p p' : Program) (ρ : Nat → Nat),
      Program.ofScript script = .ok p ∧ Program.ofScript script' = .ok p' ∧
      ρ 0 = 0 ∧ (spokenLines lines).map (fun l => ρ l.1)
      = (spokenLines lines').map Prod.fst ∧
      p'.spoken = p.spoken.map (Placed.moved f ρ (Item.moved f ρ)) ∧
      p'.functions.map FunctionDef.spoken
        = (p.functions.map FunctionDef.spoken).map (FunctionDef.moved f ρ) ∧
      p'.storedNames = p.storedNames ∧
      p'.diagnostic = p.diagnostic.map (ParseError.renumbered ρ) ∧
      ∀ {σ : Type} (host : Host σ) (globals : Bindings Value) (input : Value),
        (∀ w, (p'.run host globals input).run w =
          (((p.run host globals input).run w).1.map (RunResult.renumbered ρ),
            ((p.run host globals input).run w).2)) ∧
        (∀ (s : Schedule σ) w, (p'.runIn s host globals input).run w =
          (((p.runIn s host globals input).run w).1.map (RunResult.renumbered ρ),
            ((p.runIn s host globals input).run w).2)) ∧
        ∀ (s s' : Schedule σ) w w', host.Steady →
          ((p.runIn s host globals input).run w).2.generation
          = w.generation + 1 →
          ((p'.runIn s' host globals input).run w').2.generation
          = w'.generation + 1 →
          ∃ r r₁ r', ((p.runIn s host globals input).run w).1 = some r ∧
            ((p.runIn s' host globals input).run w').1 = some r₁ ∧
            ((p'.runIn s' host globals input).run w').1 = some r' ∧
            r'.output = r.output ∧ r'.isComplete = r.isComplete ∧
            r'.lastLine = ρ r.lastLine ∧
            r'.error = r₁.error.map (RunError.renumbered ρ) := by
  have hlength : (spokenLines lines).length = (spokenLines lines').length := by
    have hboth := congrArg List.length hlines
    rw [List.length_map, List.length_map] at hboth
    exact hboth.symm
  obtain ⟨ρ, hρ, hmap⟩ := exists_renumbering hlex hlength
  have hmem : ∀ l ∈ spokenLines lines,
      l.2.tabDepth ∈ {t | ∃ l ∈ spokenLines lines, l.2.tabDepth = t} :=
      fun l hl => ⟨l, hl, rfl⟩
  have hmoved := forall₂_movesTo hmem hlines hmap
  have hspoken := spokenItems_readItems hf hmoved
  refine ⟨⟨readItems {} lines⟩, ⟨readItems {} lines'⟩, ρ,
    Program.ofScript_eq_ok_iff.2 ⟨lines, hlex, rfl⟩,
    Program.ofScript_eq_ok_iff.2 ⟨lines', hlex', rfl⟩, hρ, hmap, hspoken,
    Program.functions_of_spoken hspoken, Program.storedNames_of_spoken hspoken,
    Program.diagnostic_of_spoken hspoken,
    fun host globals input => ⟨?_, ?_, ?_⟩⟩
  · exact Program.run_of_spoken hρ hspoken host globals input
  · exact fun s => Program.runIn_of_spoken hρ hspoken s host globals input
  · intro s s' w w' hh hfresh hfresh'
    exact Program.runIn_of_spoken_in_any_order hρ hspoken hh s s' hfresh hfresh'

/-- **Two layouts and two orders.** The second script has a comment and empty
lines, one of them in the function, and is indented twice as deep. Its filter
stands at another line and fails on both elements, and the one that is done
first says why. -/
theorem layout_is_of_no_matter_twice :
    let host := Host.none Unit
    let input : Value := .array [.text "a", .truth true]
    let script' :=
      "# map\n\nmap\n    function keep()\n\n        exit\n    filter\n      keep"
    ∃ (p' : Program) (ρ : Nat → Nat), Program.ofScript script' = .ok p' ∧
      [ρ 0, ρ 1, ρ 2, ρ 3, ρ 4, ρ 5] = [0, 3, 4, 6, 7, 8] ∧
      p'.spoken = keepProgram.spoken.map
      (Placed.moved (2 * ·) ρ (Item.moved (2 * ·) ρ)) ∧
      ((p'.runIn (.leftToRight Unit) host [] input).run ⟨(), 0⟩).1.map
        (fun r => (r.lastLine, r.error))
        = some (7, some (.notIterable .filter .text)) ∧
      ((p'.runIn (.rightToLeft Unit) host [] input).run ⟨(), 0⟩).1.map
        (fun r => (r.lastLine, r.error))
        = some (7, some (.notIterable .filter .truth)) ∧
      ∃ r r',
        ((keepProgram.runIn (.leftToRight Unit) host [] input).run ⟨(), 0⟩).1
        = some r ∧
        ((p'.runIn (.rightToLeft Unit) host [] input).run ⟨(), 0⟩).1 = some r' ∧
        r'.output = r.output ∧ r.isComplete = false ∧
        r'.isComplete = false := by
  intro host input script'
  have hlex : lexScript keepScript = .ok [(1, ⟨0, ["map"], "map"⟩),
      (2, ⟨2, ["function", "keep", "(", ")"], "  function keep()"⟩),
      (3, ⟨4, ["exit"], "    exit"⟩), (4, ⟨2, ["filter"], "  filter"⟩),
      (5, ⟨3, ["keep"], "   keep"⟩)] :=
    Act.toOption_eq_some_iff.1 (by decide +kernel)
  have hlex' : lexScript script' = .ok [(1, ⟨0, [], "# map"⟩), (2, ⟨0, [], ""⟩),
      (3, ⟨0, ["map"], "map"⟩),
      (4, ⟨4, ["function", "keep", "(", ")"], "    function keep()"⟩),
      (5, ⟨0, [], ""⟩), (6, ⟨8, ["exit"], "        exit"⟩),
      (7, ⟨4, ["filter"], "    filter"⟩),
      (8, ⟨6, ["keep"], "      keep"⟩)] :=
    Act.toOption_eq_some_iff.1 (by decide +kernel)
  have hmono : ∀ S : Set Nat, StrictMonoOn (2 * ·) S := fun S a _ b _ h => by
    show 2 * a < 2 * b
    omega
  obtain ⟨p, p', ρ, hp, hp', hzero, hnumbers, hspoken, -, -, -, hrun⟩ :=
    layout_is_of_no_matter hlex hlex' (hmono _) rfl
  obtain rfl : p = keepProgram :=
    Except.ok.inj (hp.symm.trans ofScript_keepScript)
  have hfive : [ρ 1, ρ 2, ρ 3, ρ 4, ρ 5] = [3, 4, 6, 7, 8] := hnumbers
  obtain ⟨-, hsame, hany⟩ := hrun host [] input
  -- The first script fails at its fourth line, with the error of the leaf that
  -- is done first.
  have hleft :
      ((keepProgram.runIn (.leftToRight Unit) host [] input).run ⟨(), 0⟩).1.map
      (fun r => (r.lastLine, r.error))
      = some (4, some (.notIterable .filter .text)) := by
    cbv
  have hright :
      ((keepProgram.runIn (.rightToLeft Unit) host [] input).run ⟨(), 0⟩).1.map
      (fun r => (r.lastLine, r.error))
      = some (4, some (.notIterable .filter .truth)) := by
    cbv
  have hfour : ρ 4 = 7 := by
    have hlist := hfive
    simp only [List.cons.injEq] at hlist
    exact hlist.2.2.2.1
  have hfresh :
      ((keepProgram.runIn (.leftToRight Unit) host [] input).run
        ⟨(), 0⟩).2.generation
      = 1 := by
    cbv
  have hfresh' :
      ((p'.runIn (.rightToLeft Unit) host [] input).run ⟨(), 0⟩).2.generation
      = 1 := by
    rw [hsame]
    cbv
  obtain ⟨r, r₁, r', hr, -, hr', houtput, hcomplete, -, -⟩ :=
    hany _ _ _ _ (Host.steady_none Unit) hfresh hfresh'
  have hfails : r.isComplete = false := by
    rw [hr] at hleft
    have herror : r.error = some (.notIterable .filter .text) :=
      congrArg Prod.snd (Option.some.inj hleft)
    rw [RunResult.isComplete, herror]
    rfl
  refine ⟨p', ρ, hp', ?_, hspoken, ?_, ?_, r, r', hr, hr', houtput, hfails,
    hcomplete.trans hfails⟩
  · rw [hzero, hfive]
  · rw [hsame, ← hfour]
    exact RunResult.failure_renumbered rfl hleft
  · rw [hsame, ← hfour]
    exact RunResult.failure_renumbered rfl hright

end Scripts

end StreamScript
