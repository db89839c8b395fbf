import Mathlib
import StreamScript.Run.Session
import StreamScript.Proofs.Moves
import StreamScript.Proofs.Supersession

/-!
# What an outdated run still does

A run that has been overtaken by another does not stop at once. The other may
begin while the scopes before a line are closed, while one of many branches
executes it, or deep in the bodies of functions, which look at no token; the
line that is being taken then is taken to its end. But it is the last one.
`Program.course_of_stale` says so for every moment at which another run can
begin: of the lines behind the one whose execution ends after it, none is
executed. If that line succeeds and is no exit, nothing else happens either.
The scopes that are open stay open, nothing more is asked of the host, and
there is no result.

The lines that a run executes are those of `Drive.Steps`. It comes to them, it
has closed the scopes that they do not stand in, and then it executes them. A
run that has executed a line further down has come past the look at the token
behind every line above it (`Drive.Steps.goes_on`), and from that all the rest
follows.

Tokens are handed out in order, and of any number of them only the last is
current (`Session.isCurrent_beginAll`).
-/

namespace StreamScript

variable {σ : Type} {host : Host σ} {calls : Callables σ} {token : Option Nat}

/-! ## Executing lines

To take a line is to close scopes and then to execute it, and a newer run may
begin during either. The statement distinguishes them, since a line is executed
or not; what is said of a line begins when its scopes have been closed. -/

namespace Drive

/-- **A run of lines executes a line**, with some lines behind it: the run
comes to the line, the scopes that it does not stand in are closed, and it is
executed, with the outcome `o`. -/
def Steps (host : Host σ) (calls : Callables σ) (token : Option Nat)
    (l : List (Placed Step)) (p : Progress) (w : World σ) (s : Placed Step)
    (rest : List (Placed Step))
    (o : Except RunError Bool × Progress × World σ) : Prop :=
  s.content.isBlank = false ∧
    ∃ p₁ w₁ p₂ w₂, Reaches host calls token l p w (s :: rest) p₁ w₁ ∧
      (closeTo host calls s.depth).exec p₁ w₁ = (.ok (), p₂, w₂) ∧
      (step host calls s).exec { p₂ with lastLine := s.line } w₂ = o

namespace Steps

variable {l rest rest' : List (Placed Step)} {p q : Progress} {w v : World σ}
  {s s' : Placed Step} {r : Except RunError Bool}
  {o o' : Except RunError Bool × Progress × World σ}

/-- A line that is executed has been taken. -/
theorem exists_take (h : Steps host calls token l p w s rest o) :
    ∃ p₁ w₁, Reaches host calls token l p w (s :: rest) p₁ w₁ ∧
      (take host calls s).exec p₁ w₁ = o := by
  obtain ⟨-, p₁, w₁, p₂, w₂, hreach, hclose, hstep⟩ := h
  refine ⟨p₁, w₁, hreach, ?_⟩
  rw [exec_take, hclose]
  exact hstep

/-- It is one of the lines, and those behind it are behind it. -/
theorem exists_append (h : Steps host calls token l p w s rest o) :
    ∃ before, l = before ++ s :: rest := by
  obtain ⟨p₁, w₁, hreach, -⟩ := h.exists_take
  exact hreach.exists_append

/-- **A run that executes a line further down** has gone on behind this one: it
has neither failed nor ended the run, and the token was not out of date when it
was looked at. A run has one way to go, so the place of the line further down
is behind that of this one. -/
theorem goes_on (h : Steps host calls token l p w s rest (r, q, v))
    (h' : Steps host calls token l p w s' rest' o')
    (hlt : rest'.length < rest.length) :
    r = .ok false ∧ isStale token (v.pause host) = false := by
  obtain ⟨p₁, w₁, hreach, htake⟩ := h.exists_take
  obtain ⟨p₁', w₁', hreach', -⟩ := h'.exists_take
  have hbehind := hreach.linear hreach' (Nat.succ_le_succ (Nat.le_of_lt hlt))
  cases hbehind with
  | here => exact absurd hlt (Nat.lt_irrefl _)
  | blank hs => exact absurd hs (by simp [h.1])
  | line _ ht hf =>
    rw [htake] at ht
    cases ht
    exact ⟨rfl, hf⟩

/-- Where a run cannot go on behind a line, it executes none of those behind
it. -/
theorem not_steps_behind (h : Steps host calls token l p w s rest (r, q, v))
    (hstop : r = .ok false → isStale token (v.pause host) = true)
    {between : List (Placed Step)} (hrest : rest = between ++ s' :: rest') :
    ¬Steps host calls token l p w s' rest' o' := by
  intro h'
  have hlt : rest'.length < rest.length := by
    rw [hrest, List.length_append, List.length_cons]
    omega
  obtain ⟨hok, hfresh⟩ := h.goes_on h' hlt
  rw [hstop hok] at hfresh
  cases hfresh

/-- **The run ends behind a line** if its token is out of date there, and
leaves everything as the line has left it. -/
theorem exec_eq_superseded
    (h : Steps host calls token l p w s rest (.ok false, q, v))
    (hstale : isStale token (v.pause host) = true) :
    (lines host calls token l).exec p w
    = (.ok .superseded, q, v.pause host) := by
  obtain ⟨p₁, w₁, hreach, htake⟩ := h.exists_take
  rw [hreach.exec_eq]
  exact (Ends.superseded h.1 htake hstale).exec_eq

end Steps

end Drive

/-- A line that has been executed and is no exit does not end the run. -/
theorem Drive.Steps.exits_eq_false {l rest : List (Placed Step)}
    {s : Placed Step} {p q : Progress} {w v : World σ} {exits : Bool}
    (h : Steps host calls token l p w s rest (.ok exits, q, v))
    (hne : s.content ≠ .act .exit) :
    exits = false := by
  obtain ⟨hs, _, _, _, _, -, -, hstep⟩ := h
  exact exits_eq_false_of_step hs hne hstep

/-! ## Tokens

Every run that begins gets the next number, and the number of the last one is
what tokens are compared with. -/

/-- Begins runs one after the other, and yields their tokens. -/
def Session.beginAll (session : Session σ) : Nat → List Nat × Session σ
  | 0 => ([], session)
  | n + 1 =>
    let (token, session) := session.begin
    let (tokens, session) := session.beginAll n
    (token :: tokens, session)

/-- The tokens are the numbers of the runs. -/
theorem Session.tokens_beginAll (session : Session σ) (n : Nat) :
    (session.beginAll n).1 = List.range' (session.world.generation + 1) n ∧
      (session.beginAll n).2.world.generation = session.world.generation
      + n := by
  induction n generalizing session with
  | zero => exact ⟨rfl, rfl⟩
  | succ n ih =>
    obtain ⟨htokens, hgeneration⟩ := ih session.begin.2
    refine ⟨?_, ?_⟩
    · rw [List.range'_succ]
      exact congrArg _ htokens
    · show (session.begin.2.beginAll n).2.world.generation = _
      rw [hgeneration]
      show session.world.generation + 1 + n = _
      omega

/-- **Of the runs begun only the last is current.** -/
theorem Session.isCurrent_beginAll (session : Session σ) {n i t : Nat}
    (ht : (session.beginAll n).1[i]? = some t) :
    (session.beginAll n).2.isCurrent t = true ↔ i + 1 = n := by
  obtain ⟨htokens, hgeneration⟩ := session.tokens_beginAll n
  rw [htokens] at ht
  obtain ⟨hi, rfl⟩ := List.getElem?_eq_some_iff.1 ht
  rw [List.length_range'] at hi
  rw [isCurrent, beq_iff_eq, hgeneration, List.getElem_range']
  omega

/-! ## Programs

The course of a run is what its lines do, before the result is read off. The
statement is about every line that the course executes, in the world in which
it ends. -/

/-- **The course of a run**: how it ends, how far it has come, and the world
that it leaves. -/
def Program.course (p : Program) (host : Host σ) (globals : Bindings Value)
    (input : Value) (w : World σ) :
    Except RunError Ending × Progress × World σ :=
  (Drive.lines host (p.callables host globals)
    (some (w.generation + 1)) p.steps).exec
    (.start input globals) w.begin

/-- The result of a run is read off its course. -/
theorem Program.run_course (p : Program) (host : Host σ)
    (globals : Bindings Value) (input : Value) (w : World σ) :
    (p.run host globals input).run w =
      let (r, q, v) := p.course host globals input w
      (RunResult.of? r q, v) := rfl

/-- The lines that a run of a program executes, each with the lines behind it
and its outcome. -/
def Program.Steps (p : Program) (host : Host σ) (globals : Bindings Value)
    (input : Value) (w : World σ) (s : Placed Step) (rest : List (Placed Step))
    (o : Except RunError Bool × Progress × World σ) : Prop :=
  Drive.Steps host (p.callables host globals) (some (w.generation + 1)) p.steps
    (.start input globals) w.begin s rest o

/-- **A run that is out of date executes no further line.** Let a newer run
begin at any moment, and take a line whose execution, or the pause behind it,
ends after that. None of the lines behind it is executed. If it succeeds and is
no exit, there is no result, the scopes stay as the line has left them, and all
that still happens in the world is the pause. And of all runs that have begun
the last alone is current. -/
theorem Program.course_of_stale (p : Program) (host : Host σ)
    (globals : Bindings Value) (input : Value) (w : World σ) :
    (∀ s rest r q v, p.Steps host globals input w s rest (r, q, v) →
      w.generation + 1 < (v.pause host).generation →
      (∀ between s' rest' o, rest = between ++ s' :: rest' →
        ¬p.Steps host globals input w s' rest' o) ∧
      (s.content ≠ .act .exit → ∀ exits, r = .ok exits →
        p.course host globals input w = (.ok .superseded, q, v.pause host) ∧
        (p.run host globals input).run w = (none, v.pause host))) ∧
    ∀ (session : Session σ) (n i t : Nat), (session.beginAll n).1[i]? = some t →
      ((session.beginAll n).2.isCurrent t = true ↔ i + 1 = n) := by
  refine ⟨fun s rest r q v h hbegun => ?_,
    fun session n i t => session.isCurrent_beginAll⟩
  have hstale : Drive.isStale (some (w.generation + 1)) (v.pause host) = true :=
    Drive.isStale_some_iff.2 (Nat.ne_of_gt hbegun)
  refine ⟨fun between s' rest' o hrest => h.not_steps_behind (fun _ => hstale)
    hrest, ?_⟩
  rintro hne exits rfl
  obtain rfl : exits = false := h.exits_eq_false hne
  have hcourse :
      p.course host globals input w = (.ok .superseded, q, v.pause host) :=
    h.exec_eq_superseded hstale
  refine ⟨hcourse, ?_⟩
  rw [Program.run_course, hcourse]
  rfl

/-- A block in which a newer run begins, on every element that it goes
through. -/
def ringInBlock : Program :=
  ⟨[{ content := .step (.act (.scope { kind := .map }))
      tabDepth := 0, depth := 0, line := 1 },
    { content := .step (.act (.eval (.call "sideOutput" [.text "stop"])))
      tabDepth := 1, depth := 1, line := 2 },
    { content := .step (.act (.eval (.name "nope"))), tabDepth := 0, depth := 0,
      line := 3 }]⟩

/-- **The last line of an outdated run** stands in a scope here, which is never
closed, and the line behind it, which would fail, is not executed. -/
theorem ringInBlock_is_stale :
    let input : Value := .array [.text "a", .text "b"]
    let w : World Unit := ⟨(), 0⟩
    ∃ s s' r q v, ringInBlock.Steps bell [] input w s [s'] (r, q, v) ∧
      s.line = 2 ∧ 1 < (v.pause bell).generation ∧ q.scopes.length = 1 ∧
      (∀ o, ¬ringInBlock.Steps bell [] input w s' [] o) ∧
      ringInBlock.course bell [] input w = (.ok .superseded, q, v.pause bell) ∧
      (ringInBlock.run bell [] input).run w = (none, v.pause bell) := by
  intro input w
  let calls := ringInBlock.callables bell []
  let start : Progress := .start input []
  let first : Placed Step := ⟨.act (.scope { kind := .map }), 0, 0, 1⟩
  let second : Placed Step :=
    ⟨.act (.eval (.call "sideOutput" [.text "stop"])), 1, 1, 2⟩
  let third : Placed Step := ⟨.act (.eval (.name "nope")), 0, 0, 3⟩
  let p₁ := ((Drive.take bell calls first).exec start w.begin).2.1
  let w₁ := ((Drive.take bell calls first).exec start w.begin).2.2.pause bell
  have hreach :
      Drive.Reaches bell calls (some 1) [first, second, third] start w.begin
      [second, third] p₁ w₁ := .next rfl (by cbv) (by cbv)
  have hclose : (Drive.closeTo bell calls 1).exec p₁ w₁ = (.ok (), p₁, w₁) := by
    rw [Drive.exec_closeTo, show p₁.scopes.length = 1 by cbv]
    rfl
  rcases hstep : (Drive.step bell calls second).exec { p₁ with lastLine := 2 }
    w₁ with ⟨r, q, v⟩
  have hok : ((Drive.step bell calls second).exec { p₁ with lastLine := 2 } w₁).1
      = .ok false := by cbv
  have hscopes : ((Drive.step bell calls second).exec
      { p₁ with lastLine := 2 } w₁).2.1.scopes.length = 1 := by cbv
  have hbegun : (((Drive.step bell calls second).exec
      { p₁ with lastLine := 2 } w₁).2.2.pause bell).generation = 3 := by cbv
  rw [hstep] at hok hscopes hbegun
  have hsteps : ringInBlock.Steps bell [] input w second [third] (r, q, v) :=
    ⟨rfl, p₁, w₁, p₁, w₁, hreach, hclose, hstep⟩
  have hlate : 1 < (v.pause bell).generation := hbegun ▸ by decide
  obtain ⟨hnone, hend⟩ :=
    (ringInBlock.course_of_stale bell [] input w).1 _ _ _ _ _ hsteps hlate
  exact ⟨second, third, r, q, v, hsteps, rfl, hlate, hscopes,
    fun o => hnone [] third [] o rfl, hend (by simp [second]) false hok⟩

end StreamScript
