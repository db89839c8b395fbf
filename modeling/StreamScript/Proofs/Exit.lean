import Mathlib
import StreamScript.Proofs.Leaves
import StreamScript.Proofs.Patience
import StreamScript.Proofs.Root
import StreamScript.Proofs.Staleness

/-!
# What an exit ends

An exit ends the run where it stands. What is open is closed, as at the end of
the script, and nothing else happens: the exit itself changes nothing
(`Drive.exec_step_exit`), so what is closed is what the lines before it have
left (`Drive.exec_closeTo_zero`). `Program.exit_is_terminal` says that the
result is that of a script that ends above the exit, and that it is so in the
bodies of functions too.

A line is executed once for every branch, and an exit in a block that has none,
since its scope goes through nothing, is not executed at all. Such an exit does
not end the run. No other line of such a block does anything either.

The run that ends at the exit has paused once more than the one that ends above
it. So the host has to be one that lets a pause make no difference
(`Host.Patient`).
-/

namespace StreamScript

variable {σ : Type} {host : Host σ} {calls : Callables σ} {token : Option Nat}

/-! ## An exit on the leaves

On a leaf an exit leaves everything as it is, and says that the run is to end.
Put into place on all leaves, this changes nothing. -/

namespace Arena

variable {a : Arena}

/-- What an exit does on a leaf: it leaves what is there. -/
def exitOutcome (a : Arena) (leaf : Nat) : Outcome :=
  { stream := (a.cell leaf).stream, exits := true }

/-- The outcomes of an exit, leaf by leaf. They are found without asking the
host. -/
theorem exec_outcomes_exit (h : ∀ i ∈ a.leaves, i < a.branches.size)
    (w : World σ) :
    (a.outcomes calls .exit).exec w
    = (.ok (a.leaves.map a.exitOutcome), w) := by
  refine Act.exec_mapM_eq_ok (fun i hi w => ?_) w
  unfold outcome scopeOf branch exitOutcome cell
  rw [Array.getElem?_eq_getElem (h i hi)]
  rfl

/-- A leaf that is left as it is. -/
theorem settle_exit {leaf : Nat} (h : leaf < a.branches.size) :
    a.settle leaf (a.exitOutcome leaf) = a := by
  have hbranch := Array.getElem?_eq_getElem h
  have hcell : (a.cell leaf).stream = a.branches[leaf].stream := by
    unfold cell
    rw [hbranch]
    rfl
  refine ext_getElem? (fun j => ?_) rfl
  rw [getElem?_settle h]
  split
  · next hj =>
    subst hj
    rw [hbranch]
    refine congrArg some ?_
    unfold Branch.settle exitOutcome
    rw [hcell]
    exact congrArg (fun c => { a.branches[j] with children := c })
      (List.append_nil _)
  · split
    · rfl
    · next hlt => exact (Array.getElem?_eq_none (Nat.le_of_not_lt hlt)).symm

/-- The same for all leaves. -/
theorem commit_exit {leaves : List Nat}
    (h : ∀ i ∈ leaves, i < a.branches.size) :
    a.commit (leaves.zip (leaves.map a.exitOutcome)) = a := by
  induction leaves with
  | nil => rfl
  | cons i leaves ih =>
    obtain ⟨hi, hleaves⟩ := List.forall_mem_cons.1 h
    show (a.settle i (a.exitOutcome i)).commit
        (leaves.zip (leaves.map a.exitOutcome)) = a
    rw [settle_exit hi, ih hleaves]

end Arena

namespace Drive

variable {p q : Progress} {w v : World σ} {k : Placed Step}
    {l after : List (Placed Step)}

/-- **Executing an exit** changes nothing, and ends the run if there is a
leaf. -/
theorem exec_step_exit (hk : k.content = .act .exit) (h : p.machine.Rooted)
    (w : World σ) :
    (step host calls k).exec p w
    = (.ok (!p.arena.leaves.isEmpty), p, w.pause host) := by
  have hlt := h.stacked.lt_size
  rw [exec_step_act hk, Arena.exec_outcomes_exit hlt]
  refine Prod.ext (congrArg Except.ok ?_) (Prod.ext ?_ rfl)
  · rw [List.any_map]
    show p.arena.leaves.any (fun _ => true) = _
    cases p.arena.leaves <;> simp
  · have hsame := Arena.commit_exit hlt
    show { p with machine := { p.machine with arena := p.arena.commit _ } } = p
    rw [hsame]

/-! ## The end of the run

Behind an exit all scopes are closed, and so they are behind the last line of a
run that ends above it. The two runs are in different worlds by then: the exit
has paused. That is why they are compared up to a relation of worlds that
pauses keep. -/

/-- **Two runs that end alike.** Both fail with the same error, at the same
line and with the same machine; or neither fails, and one has come to the given
line with the machine of the other. -/
def EndsAlike (line : Nat)
    (o o' : Except RunError Ending × Progress × World σ) : Prop :=
  (∃ e q v v', o = (.error e, q, v) ∧ o' = (.error e, q, v')) ∨
    ∃ q v v', o = (.ok .done, { q with lastLine := line }, v) ∧
      o' = (.ok .done, q, v')

variable {r : Except RunError Bool}

/-- An exit that has been executed ends the run exactly if it has been executed
on a leaf. -/
theorem Steps.eq_of_exit (hk : k.content = .act .exit) (hp : p.machine.Rooted)
    (h : Steps host calls token l p w k after (r, q, v)) :
    r = .ok (!q.arena.leaves.isEmpty) := by
  obtain ⟨-, p₁, w₁, p₂, w₂, hreach, hclose, hstep⟩ := h
  have hrooted : ({ p₂ with lastLine := k.line } : Progress).machine.Rooted :=
    (closeTo_rooted (hreach.rooted hp) hclose).1
  rw [exec_step_exit hk hrooted] at hstep
  cases hstep
  rfl

/-- **A run ends at an exit** as if the lines before it were all there are. The
scopes that the exit does not stand in are closed first in both, and then the
others. -/
theorem Steps.endsAlike_of_exit {R : World σ → World σ → Prop}
    (hR : World.Lasting R) (hc : calls.Blind R)
    (hpause : ∀ w, R w (w.pause host)) (hk : k.content = .act .exit)
    (hp : p.machine.Rooted) {before : List (Placed Step)}
    (h : Steps host calls token (before ++ k :: after) p w k after (r, q, v))
    (hleaves : q.arena.leaves ≠ []) :
    EndsAlike k.line ((lines host calls token (before ++ k :: after)).exec p w)
      ((lines host calls token before).exec p w) := by
  obtain ⟨hshown, p₁, w₁, p₂, w₂, hreach, hclose, hstep⟩ := h
  have hrooted : p₂.machine.Rooted :=
    (closeTo_rooted (hreach.rooted hp) hclose).1
  have hexit : (step host calls k).exec { p₂ with lastLine := k.line } w₂
      = (.ok (!p₂.arena.leaves.isEmpty), { p₂ with lastLine := k.line },
        w₂.pause host) :=
    exec_step_exit (p := { p₂ with lastLine := k.line }) hk hrooted w₂
  rw [hexit] at hstep
  cases hstep
  have htake : (take host calls k).exec p₁ w₁
      = (.ok true, { p₂ with lastLine := k.line }, w₂.pause host) := by
    rw [exec_take, hclose]
    exact hexit.trans (by rw [List.isEmpty_eq_false_iff.2 hleaves]; rfl)
  -- What is left to do in either run is to close the scopes that the exit
  -- stands in.
  rcases h₁ : (closeTo host calls 0).exec p₂ w₂ with ⟨r, ⟨m, line⟩, v⟩
  rcases h₂ : (closeTo host calls 0).exec { p₂ with lastLine := k.line }
      (w₂.pause host) with
    ⟨r', ⟨m', line'⟩, v'⟩
  have hblind := closeTo_blind host hR hc 0 p₂ { p₂ with lastLine := k.line }
    rfl (hpause w₂)
  rw [h₁, h₂] at hblind
  obtain ⟨rfl, rfl, hline⟩ := hblind
  rw [hreach.exec_eq, hreach.before.exec_eq,
    (Ends.exited hshown htake h₂).exec_eq,
    (Ends.finished ((exec_closeTo_zero hclose).trans h₁)).exec_eq]
  cases r with
  | error e =>
    obtain rfl : line = line' := hline nofun
    exact .inl ⟨e, ⟨m, line⟩, v', v, rfl, rfl⟩
  | ok _ =>
    obtain rfl : line' = k.line :=
      (closeTo_rooted (p := { p₂ with lastLine := k.line }) hrooted h₂).2
    exact .inr ⟨⟨m, line⟩, v', v, rfl, rfl⟩

/-- No line behind an exit is executed. -/
theorem Steps.not_steps_of_exit (hk : k.content = .act .exit)
    (hp : p.machine.Rooted) (h : Steps host calls token l p w k after (r, q, v))
    (hleaves : q.arena.leaves ≠ []) {between rest : List (Placed Step)}
    {s : Placed Step} {o : Except RunError Bool × Progress × World σ}
    (hafter : after = between ++ s :: rest) :
    ¬Steps host calls token l p w s rest o := by
  refine h.not_steps_behind (fun hgoes => ?_) hafter
  rw [h.eq_of_exit hk hp, List.isEmpty_eq_false_iff.2 hleaves] at hgoes
  cases hgoes

end Drive

/-! ## Programs and functions

For a program the end of a run is read as its result, and for a function as the
value of its root. Where the exit is executed on no leaf neither says anything,
and the run goes on; this is what distinguishes an exit in a block that is run
on no element. -/

/-- **An exit is the end.** A run that executes an exit goes on behind it
exactly if there was no branch to execute it on, as in the block of a scope
with no elements. Otherwise none of the lines behind it is executed, and the
result is that of the lines before it, with the functions of the program: the
same output, and the same error if a scope fails to close. If nothing fails the
line reached is that of the exit. In the body of a function it is the same, and
the call comes to what it would come to if the body had ended before the
exit. -/
theorem Program.exit_is_terminal (hh : host.Patient) (p : Program)
    (globals : Bindings Value) :
    (∀ input w k after r q v, p.Steps host globals input w k after (r, q, v) →
      k.content = .act .exit →
      r = .ok (!q.arena.leaves.isEmpty) ∧
      (q.arena.leaves ≠ [] →
        (∀ between s rest o, after = between ++ s :: rest →
          ¬p.Steps host globals input w s rest o) ∧
        ∃ before a b, p.steps = before ++ k :: after ∧
          ((p.run host globals input).run w).1 = some a ∧
          ((p.runLines host globals before input).run w).1 = some b ∧
          a.output = b.output ∧ a.error = b.error ∧
          a.lastLine = if b.isComplete then k.line else b.lastLine)) ∧
    ∀ (d : FunctionDef) (allowance : Nat) (target : Value)
      (arguments : List Value) w k after r q v,
      let calls : Callables σ := ⟨p.isNullary, p.call host globals allowance⟩
      let start : Progress := .start target (d.locals globals arguments)
      Drive.Steps host calls none d.body start w k after (r, q, v) →
      k.content = .act .exit →
      r = .ok (!q.arena.leaves.isEmpty) ∧
      (q.arena.leaves ≠ [] →
        (∀ between s rest o, after = between ++ s :: rest →
          ¬Drive.Steps host calls none d.body start w s rest o) ∧
        ∃ before, d.body = before ++ k :: after ∧
          ((d.run host calls globals target arguments).exec w).1 =
            (({ d with body := before }.run host calls globals target
              arguments).exec w).1) := by
  obtain ⟨R, hR, hhost, hpause⟩ := hh.exists_blind
  constructor
  · intro input w k after r q v h hk
    have hrooted := Machine.rooted_start input globals
    refine ⟨h.eq_of_exit hk hrooted, fun hleaves =>
      ⟨fun between s rest o hafter => h.not_steps_of_exit hk hrooted hleaves
        hafter, ?_⟩⟩
    obtain ⟨before, hsteps⟩ := Drive.Steps.exists_append h
    have hc : (p.callables host globals).Blind R :=
      p.blind_call hR hhost globals callLimit
    unfold Program.Steps at h
    rw [hsteps] at h
    have hend := h.endsAlike_of_exit hR hc hpause hk hrooted hleaves
    rw [← hsteps] at hend
    obtain ⟨e, q', v₁, v₂, h₁, h₂⟩ | ⟨q', v₁, v₂, h₁, h₂⟩ := hend
    · refine ⟨before, ⟨q'.arena.output, q'.lastLine, some e⟩,
        ⟨q'.arena.output, q'.lastLine, some e⟩, hsteps, ?_, ?_, rfl, rfl, rfl⟩
      · rw [Program.run, Program.run_runLines, h₁]
        rfl
      · rw [Program.run_runLines, h₂]
        rfl
    · refine ⟨before, ⟨q'.arena.output, k.line, none⟩,
        ⟨q'.arena.output, q'.lastLine, none⟩, hsteps, ?_, ?_, rfl, rfl, rfl⟩
      · rw [Program.run, Program.run_runLines, h₁]
        rfl
      · rw [Program.run_runLines, h₂]
        rfl
  · intro d allowance target arguments w k after r q v calls start h hk
    have hrooted := Machine.rooted_start target (d.locals globals arguments)
    refine ⟨h.eq_of_exit hk hrooted, fun hleaves =>
      ⟨fun between s rest o hafter => h.not_steps_of_exit hk hrooted hleaves
        hafter, ?_⟩⟩
    obtain ⟨before, hbody⟩ := h.exists_append
    have hc : calls.Blind R := p.blind_call hR hhost globals allowance
    rw [hbody] at h
    have hend := h.endsAlike_of_exit hR hc hpause hk hrooted hleaves
    rw [← hbody] at hend
    refine ⟨before, hbody, ?_⟩
    rw [FunctionDef.exec_run, FunctionDef.exec_run]
    -- The function that ends before the exit begins as the whole one does.
    have hstart :
      (.start target (FunctionDef.locals { d with body := before } globals
        arguments) : Progress) = start := rfl
    rw [hstart]
    obtain ⟨e, q', v₁, v₂, h₁, h₂⟩ | ⟨q', v₁, v₂, h₁, h₂⟩ := hend
    · rw [h₁, h₂]
    · rw [h₁, h₂]

/-- A function that ends before its second line, and a filter that ends before
that of its block. -/
def stopProgram : Program :=
  ⟨[{ content := .function ⟨"stop", [], [⟨.act .exit, 1, 0, 2⟩,
        ⟨.act (.eval (.name "nope")), 1, 0, 3⟩]⟩, tabDepth := 0, depth :=
        0, line := 1 },
    { content := .step (.act (.scope { kind := .filter })), tabDepth := 0,
      depth := 0, line := 4 },
    { content := .step (.act .exit), tabDepth := 1, depth := 1, line := 5 },
    { content := .step (.act (.eval (.name "nope"))), tabDepth := 1, depth := 1,
      line := 6 }]⟩

/-- **The filter is closed where the exit stands**, on what its block has left
of the elements, and a call of the function leaves its target. The lines behind
the exits would fail. -/
theorem stopProgram_ends :
    let host := Host.none Unit
    let calls := stopProgram.callables host []
    let w : World Unit := ⟨(), 0⟩
    (∃ a,
      ((stopProgram.run host [] (.array [.truth true, .truth false])).run w).1
      = some a ∧
      a.output = .array [.truth true] ∧ a.error = none ∧ a.lastLine = 5) ∧
    ∃ d, stopProgram.function? "stop" = some d ∧
      ((d.run host calls [] (.text "a") []).exec w).1 = .ok (.text "a") := by
  intro host calls w
  obtain ⟨hrun, hcall⟩ :=
    stopProgram.exit_is_terminal (Host.patient_none Unit) []
  constructor
  · let input : Value := .array [.truth true, .truth false]
    let exit : Placed Step := ⟨.act .exit, 1, 1, 5⟩
    let start : Progress := .start input []
    obtain ⟨p₁, w₁, hreach, hclose, hleaves⟩ : ∃ p₁ w₁,
        Drive.Reaches host calls (some 1) stopProgram.steps start w.begin
          (stopProgram.steps.drop 2) p₁ w₁ ∧
        ((Drive.closeTo host calls 1).exec p₁ w₁).1 = .ok () ∧
        ((Drive.take host calls exit).exec p₁ w₁).2.1.arena.leaves = [1, 2] :=
      ⟨_, _, .blank rfl (.next rfl (by cbv) (by cbv)), by cbv, by cbv⟩
    rw [Drive.exec_take] at hleaves
    rcases hc : (Drive.closeTo host calls 1).exec p₁ w₁ with ⟨r, p₂, w₂⟩
    rw [show exit.depth = 1 from rfl, hc] at hleaves
    rw [hc] at hclose
    obtain rfl : r = .ok () := hclose
    rcases hs : (Drive.step host calls exit).exec { p₂ with lastLine := 5 }
      w₂ with ⟨r, q, v⟩
    replace hleaves : q.arena.leaves = [1, 2] := by
      rw [← hleaves]
      exact congrArg (fun o => o.2.1.arena.leaves) hs.symm
    have hsteps : stopProgram.Steps host [] input w exit
        (stopProgram.steps.drop 3) (r, q, v) :=
      ⟨rfl, p₁, w₁, p₂, w₂, hreach, hc, hs⟩
    obtain ⟨-, before, a, b, hbefore, ha, hb, hout, herr, hline⟩ :=
      (hrun input w exit _ r q v hsteps rfl).2
        (by rw [hleaves]; exact List.cons_ne_nil 1 [2])
    obtain rfl : stopProgram.steps.take 2 = before :=
      List.append_cancel_right hbefore
    have hcut :
        ((stopProgram.runLines host [] (stopProgram.steps.take 2) input).run
          w).1.map
        (fun b => (b.output, b.error)) = some (.array [.truth true], none) := by
        cbv
    rw [hb] at hcut
    obtain ⟨hcut, hnone⟩ := Prod.mk.inj (Option.some.inj hcut)
    refine ⟨a, ha, hout.trans hcut, herr.trans hnone, ?_⟩
    rw [hline, RunResult.isComplete, hnone]
    rfl
  · let d : FunctionDef :=
      ⟨"stop", [],
        [⟨.act .exit, 1, 0, 2⟩, ⟨.act (.eval (.name "nope")), 1, 0, 3⟩]⟩
    let start : Progress := .start (.text "a") []
    have hsteps :
        Drive.Steps host calls none d.body start w ⟨.act .exit, 1, 0, 2⟩
        [⟨.act (.eval (.name "nope")), 1, 0, 3⟩]
        (.ok true, { start with lastLine := 2 }, w) := by
      refine ⟨rfl, start, w, start, w, .here _ _ _, rfl, ?_⟩
      exact Drive.exec_step_exit (p := { start with lastLine := 2 })
        (k := ⟨.act .exit, 1, 0, 2⟩) rfl (Machine.rooted_start (.text "a") []) w
    obtain ⟨-, before, hbefore, hvalue⟩ :=
      (hcall d callLimit (.text "a") [] w _ _ _ _ _ hsteps rfl).2
        (List.cons_ne_nil 0 [])
    refine ⟨d, by cbv, hvalue.trans ?_⟩
    obtain rfl : [] = before := List.append_cancel_right hbefore
    rfl

/-- An exit in a block that is never run, and a line behind it. -/
def exitOnNothing : Program :=
  ⟨[{ content := .step (.act (.scope { kind := .map }))
      tabDepth := 0, depth := 0, line := 1 },
    { content := .step (.act .exit), tabDepth := 1, depth := 1, line := 2 },
    { content := .step (.act (.eval (.text "x"))), tabDepth := 0, depth := 0,
      line := 3 }]⟩

/-- **Without an element there is no exit.** The run comes to the line and
executes it on no branch, and then it executes the line behind it, although no
newer run has begun. The lines before the exit leave something else. -/
theorem exitOnNothing_goes_on :
    let host := Host.none Unit
    let w : World Unit := ⟨(), 0⟩
    let exit : Placed Step := ⟨.act .exit, 1, 1, 2⟩
    let last : Placed Step := ⟨.act (.eval (.text "x")), 0, 0, 3⟩
    ∃ before, exitOnNothing.steps = before ++ [exit, last] ∧
      (∃ o, exitOnNothing.Steps host [] (.array []) w exit [last] o) ∧
      (∃ o, exitOnNothing.Steps host [] (.array []) w last [] o) ∧
      ((exitOnNothing.run host [] (.array [])).run w).2.generation = 1 ∧
      ((exitOnNothing.run host [] (.array [])).run w).1
      = some ⟨.text "x", 3, none⟩ ∧
      ((exitOnNothing.runLines host [] before (.array [])).run w).1
        = some ⟨.array [], 1, none⟩ := by
  intro host w exit last
  let calls := exitOnNothing.callables host []
  let start : Progress := .start (.array []) []
  obtain ⟨p₁, w₁, hmap, hclose⟩ : ∃ p₁ w₁,
      Drive.Reaches host calls (some 1) exitOnNothing.steps start w.begin
        [exit, last] p₁ w₁ ∧
      ((Drive.closeTo host calls 1).exec p₁ w₁).1 = .ok () :=
    ⟨_, _, .next rfl (by cbv) (by cbv), by cbv⟩
  obtain ⟨p₂, w₂, hexit, hclose'⟩ : ∃ p₂ w₂,
      Drive.Reaches host calls (some 1) exitOnNothing.steps start w.begin
      [last] p₂ w₂ ∧
      ((Drive.closeTo host calls 0).exec p₂ w₂).1 = .ok () :=
    ⟨_, _, (Drive.Reaches.next rfl (by cbv) (by cbv)).trans
      (.next rfl (by cbv) (by cbv)), by cbv⟩
  exact ⟨exitOnNothing.steps.take 1, rfl,
    ⟨_, rfl, p₁, w₁, _, _, hmap, Prod.ext hclose rfl, rfl⟩,
    ⟨_, rfl, p₂, w₂, _, _, hexit, Prod.ext hclose' rfl, rfl⟩, by cbv, by
    cbv, by cbv⟩

end StreamScript
