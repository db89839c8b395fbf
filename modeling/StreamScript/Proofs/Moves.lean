import StreamScript.Proofs.Effects

/-!
# The moves of a run

A run makes two kinds of moves: it closes a scope, and it executes a line. This
module gives each of them as an equation, in which a failing move shows what
it leaves behind. A line that fails leaves the machine as it was. A fold
that fails leaves the branches it has been into: those folded before, and the
one at hand with its children taken out of it.

The scopes are a stack, and the moves treat it as one. Closing takes scopes
from its front (`exec_closeTo_scopes`), and only a line adds one
(`Machine.after_scopes`).
-/

namespace StreamScript

variable {σ : Type} {host : Host σ} {calls : Callables σ}

/-- A progress with other branches. -/
def Progress.withArena (p : Progress) (a : Arena) : Progress :=
  { p with machine := { p.machine with arena := a } }

/-- The arena of a run. -/
abbrev Progress.arena (p : Progress) : Arena :=
  p.machine.arena

/-- The open scopes of a run. -/
abbrev Progress.scopes (p : Progress) : List OpenScope :=
  p.machine.scopes

/-- The scopes after a line: it adds one if it opens one. -/
theorem Machine.after_scopes (m : Machine) (line : Nat) (action : Action)
    (outcomes : List Outcome) :
    (m.after line action outcomes).scopes =
      match action.opened? with
      | none => m.scopes
      | some (form, target) =>
        { line, form, target, parents := m.arena.leaves,
          mark := m.arena.branches.size }
          :: m.scopes := by
  unfold Machine.after
  cases action.opened? <;> rfl

/-- **Only an exit ends a run**: no other action does, on any branch. -/
theorem Action.exits_eq_false {action : Action} {scope : Scope}
    {outcome : Outcome} {w v : World σ} (hne : action ≠ .exit)
    (h : (action.execute calls scope).exec w = (.ok outcome, v)) :
    outcome.exits = false := by
  match action with
  | .exit => exact absurd rfl hne
  | .eval _ | .store _ _ | .scope _ | .storeScope _ _ | .chain _ _ (.expr _) =>
    obtain ⟨_, _, _, h⟩ := Act.exec_bind_eq_ok.1 h
    cases h
    rfl
  | .chain _ _ (.scope _) =>
    obtain ⟨_, _, _, h⟩ := Act.exec_bind_eq_ok.1 h
    obtain ⟨_, _, _, h⟩ := Act.exec_bind_eq_ok.1 h
    cases h
    rfl

/-- The same on all branches together. -/
theorem Arena.any_exits_eq_false {a : Arena} {action : Action}
    {outcomes : List Outcome} {w v : World σ} (hne : action ≠ .exit)
    (h : (a.outcomes calls action).exec w = (.ok outcomes, v)) :
    outcomes.any Outcome.exits = false := by
  refine List.any_eq_false.2 fun outcome hmem => ?_
  obtain ⟨leaf, _, w', v', h'⟩ := Act.exists_of_mem_mapM h hmem
  obtain ⟨scope, w₁, _, h'⟩ := Act.exec_bind_eq_ok.1 h'
  rw [Action.exits_eq_false hne h']
  exact Bool.false_ne_true

namespace Drive

variable {s : OpenScope} {p q : Progress} {w v : World σ}

/-! ## Folding

A scope is folded into its parents in their order. Each fold takes the children
out of the branch first, so a fold that fails has taken them out nevertheless;
this is what a failing move leaves behind, and the equation shows it. Scopes
and the line that has been reached are not touched. -/

/-- **Folding the children of a branch into it.** If the fold fails, or what is
made of its value, the children are gone nevertheless. -/
theorem exec_foldParent (s : OpenScope) (parent : Nat) (p : Progress)
    (w : World σ) :
    (foldParent calls s parent).exec p w =
      match p.arena.yieldsOf parent with
      | .error e => (.error e, p, w)
      | .ok yields =>
        let drained := p.arena.drain parent
        match (drained.folded calls s.form parent yields).exec w with
        | (.error e, w') => (.error e, p.withArena drained, w')
        | (.ok v, w') =>
          (.ok (), p.withArena (drained.receive s.target parent v), w') := by
  unfold foldParent
  rw [exec_bind, exec_machine]
  simp only [exec_bind, exec_perform, Act.exec_lift]
  cases p.arena.yieldsOf parent with
  | error e => rfl
  | ok yields =>
    simp only [exec_become]
    rcases ((p.arena.drain parent).folded calls s.form parent yields).exec
      w with ⟨_ | x, w'⟩ <;>
      rfl

/-- A branch that has been folded into. -/
theorem exec_foldParent_eq_ok {parent : Nat}
    (h : (foldParent calls s parent).exec p w = (.ok (), q, v)) :
    ∃ yields x, p.arena.yieldsOf parent = .ok yields ∧
      ((p.arena.drain parent).folded calls s.form parent yields).exec w
      = (.ok x, v) ∧
      q = p.withArena ((p.arena.drain parent).receive s.target parent x) := by
  rw [exec_foldParent] at h
  cases hy : p.arena.yieldsOf parent with
  | error e =>
    rw [hy] at h
    cases h
  | ok yields =>
    rw [hy] at h
    dsimp only at h
    rcases hf : ((p.arena.drain parent).folded calls s.form parent yields).exec
        w with
      ⟨_ | x, w'⟩ <;> rw [hf] at h <;> cases h
    exact ⟨yields, x, rfl, hf, rfl⟩

/-- A branch that could not be folded into. -/
theorem exec_foldParent_eq_error {parent : Nat} {e : RunError}
    (h : (foldParent calls s parent).exec p w = (.error e, q, v)) :
    q = p ∨ q = p.withArena (p.arena.drain parent) := by
  rw [exec_foldParent] at h
  cases hy : p.arena.yieldsOf parent with
  | error e =>
    rw [hy] at h
    cases h
    exact .inl rfl
  | ok yields =>
    rw [hy] at h
    dsimp only at h
    rcases hf : ((p.arena.drain parent).folded calls s.form parent yields).exec
        w with
      ⟨_ | x, w'⟩ <;> rw [hf] at h <;> cases h
    exact .inr rfl

/-- Whatever becomes of a fold, the scopes and the line reached stay. -/
theorem exec_foldParent_frame (calls : Callables σ) (s : OpenScope)
    (parent : Nat) (p : Progress) (w : World σ) :
    ((foldParent calls s parent).exec p w).2.1.scopes = p.scopes ∧
      ((foldParent calls s parent).exec p w).2.1.lastLine = p.lastLine := by
  -- A fold changes the arena and nothing else, as far as it gets.
  rcases h : (foldParent calls s parent).exec p w with ⟨e | _, q, v⟩
  · rcases exec_foldParent_eq_error h with rfl | rfl <;> exact ⟨rfl, rfl⟩
  · obtain ⟨_, _, _, _, rfl⟩ := exec_foldParent_eq_ok h
    exact ⟨rfl, rfl⟩

/-- The same for several branches. -/
theorem exec_foldParents_frame (calls : Callables σ) (s : OpenScope)
    (parents : List Nat) (p : Progress) (w : World σ) :
    ((foldParents calls s parents).exec p w).2.1.scopes = p.scopes ∧
      ((foldParents calls s parents).exec p w).2.1.lastLine = p.lastLine := by
  induction parents generalizing p w with
  | nil => exact ⟨rfl, rfl⟩
  | cons parent parents ih =>
    have hp := exec_foldParent_frame calls s parent p w
    unfold foldParents
    rw [exec_bind]
    rcases h : (foldParent calls s parent).exec p w with ⟨_ | _, q, v⟩ <;>
        rw [h] at hp
    · exact hp
    · have hq := ih q v
      exact ⟨hq.1.trans hp.1, hq.2.trans hp.2⟩

/-- **Collecting a scope** is folding into all the branches it was opened on,
and then dropping its own. -/
theorem exec_collect (s : OpenScope) (p : Progress) (w : World σ) :
    (collect calls s).exec p w =
      match (foldParents calls s s.parents).exec p w with
      | (.error e, q, v) => (.error e, q, v)
      | (.ok (), q, v) => (.ok (), q.withArena (q.arena.ascend s), v) := by
  unfold collect
  rw [exec_bind]
  rcases (foldParents calls s s.parents).exec p w with ⟨_ | _, q, v⟩ <;> rfl

/-! ## Closing

Scopes are closed from the innermost on. A scope is taken off the stack before
it is collected, and if it cannot be collected the line that had opened it is
the one to blame. -/

/-- With no scope open there is nothing to close. -/
theorem exec_closeScope_nil (h : p.scopes = []) (w : World σ) :
    (closeScope host calls).exec p w = (.ok (), p, w) := by
  unfold closeScope
  rw [exec_bind, exec_machine]
  dsimp only
  rw [show p.machine.scopes = [] from h]
  exact exec_pure () p w

/-- **Closing the innermost scope.** It is off the stack before it is
collected, and if that fails the line reached is the one that had opened it. -/
theorem exec_closeScope_cons {outer : List OpenScope}
    (h : p.scopes = s :: outer) (w : World σ) :
    (closeScope host calls).exec p w =
      match (collect calls s).exec
        { p with machine := { p.machine with scopes := outer } }
        (w.pause host) with
      | (.ok done, q, v) => (.ok done, q, v)
      | (.error e, q, v) => (.error e, { q with lastLine := s.line }, v) := by
  unfold closeScope
  rw [exec_bind, exec_machine]
  dsimp only
  rw [show p.machine.scopes = s :: outer from h]
  dsimp only
  rw [exec_bind, exec_pause]
  show (_ >>= fun _ => blame s.line (collect calls s)).exec p (w.pause host) = _
  rw [exec_bind, exec_become]
  show (blame s.line (collect calls s)).exec
    { p with machine := { p.machine with scopes := outer } } (w.pause host) = _
  rw [exec_blame]
  rcases (collect calls s).exec
    { p with machine := { p.machine with scopes := outer } }
    (w.pause host) with ⟨_ | _, q, v⟩ <;> rfl

/-- A scope that has been closed is off the stack. -/
theorem exec_closeScope_scopes
    (h : (closeScope host calls).exec p w = (.ok (), q, v)) :
    q.scopes = p.scopes.tail := by
  cases hs : p.scopes with
  | nil =>
    rw [exec_closeScope_nil hs] at h
    cases h
    exact hs
  | cons s outer =>
    rw [exec_closeScope_cons hs, exec_collect] at h
    -- The scope is off the stack before anything is folded, and stays off if
    -- that fails.
    let p' : Progress :=
      { p with machine := { p.machine with scopes := outer } }
    have frame := exec_foldParents_frame calls s s.parents p' (w.pause host)
    rcases hf : (foldParents calls s s.parents).exec p' (w.pause host) with
      ⟨_ | _, q', v'⟩ <;>
      rw [hf] at h frame <;> cases h
    exact frame.1

/-- Closing the scopes deeper than a line is closing so many. -/
theorem exec_closeTo (depth : Nat) (p : Progress) (w : World σ) :
    (closeTo host calls depth).exec p w
      = (closeScopes host calls (p.scopes.length - depth)).exec p w := rfl

/-- **Closing the scopes deeper than a line** leaves as many as the line stands
in. -/
theorem exec_closeTo_scopes {depth : Nat}
    (h : (closeTo host calls depth).exec p w = (.ok (), q, v)) :
    q.scopes = p.scopes.drop (p.scopes.length - depth) := by
  have count : ∀ n (p : Progress) (w : World σ),
      (closeScopes host calls n).exec p w = (.ok (), q, v) →
      q.scopes = p.scopes.drop n := by
    intro n
    induction n with
    | zero =>
      intro p w h
      cases h
      rfl
    | succ n ih =>
      intro p w h
      obtain ⟨_, p₁, w₁, h₁, h₂⟩ := exec_bind_eq_ok.1 h
      rw [ih p₁ w₁ h₂, exec_closeScope_scopes h₁, List.drop_tail]
  exact count _ p w (exec_closeTo depth p w ▸ h)

/-- Some scopes are closed, and then some more. -/
theorem exec_closeScopes_add (m n : Nat) (p : Progress) (w : World σ) :
    (closeScopes host calls (m + n)).exec p w =
      match (closeScopes host calls m).exec p w with
      | (.ok _, q, v) => (closeScopes host calls n).exec q v
      | (.error e, q, v) => (.error e, q, v) := by
  induction m generalizing p w with
  | zero =>
    rw [Nat.zero_add]
    rfl
  | succ m ih =>
    rw [Nat.succ_add]
    show (closeScope host calls >>= fun _ =>
      closeScopes host calls (m + n)).exec p w
      = match (closeScope host calls >>= fun _ => closeScopes host calls m).exec
      p w with
      | (.ok _, q, v) => _
      | (.error e, q, v) => _
    rw [exec_bind, exec_bind]
    rcases (closeScope host calls).exec p w with ⟨_ | _, q, v⟩
    · rfl
    · exact ih q v

/-- **Closing all scopes** can be begun with those that a line does not stand
in. So the end of a run is the same whether a last line has been taken there or
not, as far as these scopes go. -/
theorem exec_closeTo_zero {depth : Nat}
    (h : (closeTo host calls depth).exec p w = (.ok (), q, v)) :
    (closeTo host calls 0).exec p w = (closeTo host calls 0).exec q v := by
  have hscopes := congrArg List.length (exec_closeTo_scopes h)
  rw [List.length_drop] at hscopes
  rw [exec_closeTo] at h
  rw [exec_closeTo, exec_closeTo, Nat.sub_zero, Nat.sub_zero]
  have hlength :
      p.scopes.length = (p.scopes.length - depth) + q.scopes.length := by omega
  rw [hlength, exec_closeScopes_add, h]

/-! ## Executing

A line is executed on all leaves before the machine is changed. So if it fails
on one of them nothing has changed, on none of the others either, although the
host may have been asked for something meanwhile. -/

variable {x : Placed Step}

/-- A line that fits no form fails. -/
theorem exec_step_invalid {e : ParseError} (hx : x.content = .invalid e)
    (p : Progress) (w : World σ) :
    (step host calls x).exec p w = (.error (.invalid e), p, w) := by
  unfold step stepWith
  rw [hx]
  rfl

/-- **Executing a line.** What it does on the leaves is found out first; if
that fails nothing has changed. -/
theorem exec_step_act {action : Action} (hx : x.content = .act action)
    (p : Progress) (w : World σ) :
    (step host calls x).exec p w =
      match (p.arena.outcomes calls action).exec (w.pause host) with
      | (.error e, w') => (.error e, p, w')
      | (.ok outcomes, w') =>
        (.ok (outcomes.any Outcome.exits),
          { p with machine := p.machine.after x.line action outcomes },
          w') := by
  unfold step stepWith
  rw [hx]
  show (pause host >>= fun _ => machine >>= fun m =>
    perform (m.arena.outcomes calls action) >>= fun outcomes => _).exec p w = _
  rw [exec_bind, exec_pause]
  show (machine >>= fun m => perform (m.arena.outcomes calls action)
    >>= fun outcomes => _).exec p (w.pause host) = _
  rw [exec_bind, exec_machine]
  show (perform (p.arena.outcomes calls action) >>= fun outcomes => _).exec p
      (w.pause host) = _
  rw [exec_bind, exec_perform]
  rcases (p.arena.outcomes calls action).exec (w.pause host) with ⟨_ | outcomes,
      w'⟩ <;> rfl

/-- A line that has been executed. -/
theorem exec_step_eq_ok {exits : Bool} (hx : x.content.isBlank = false)
    (h : (step host calls x).exec p w = (.ok exits, q, v)) :
    ∃ action outcomes, x.content = .act action ∧
      (p.arena.outcomes calls action).exec (w.pause host) = (.ok outcomes, v) ∧
      exits = outcomes.any Outcome.exits ∧
      q = { p with machine := p.machine.after x.line action outcomes } := by
  cases hc : x.content with
  | blank =>
    rw [hc] at hx
    cases hx
  | invalid e =>
    rw [exec_step_invalid hc] at h
    cases h
  | act action =>
    rw [exec_step_act hc] at h
    rcases ho : (p.arena.outcomes calls action).exec (w.pause host) with
      ⟨_ | outcomes, w'⟩ <;>
      rw [ho] at h <;> cases h
    exact ⟨action, outcomes, rfl, ho, rfl, rfl⟩

/-- A line that is no exit does not end the run. -/
theorem exits_eq_false_of_step {exits : Bool} (hx : x.content.isBlank = false)
    (hne : x.content ≠ .act .exit)
    (h : (step host calls x).exec p w = (.ok exits, q, v)) :
    exits = false := by
  obtain ⟨action, outcomes, haction, houtcomes, rfl, -⟩ := exec_step_eq_ok hx h
  exact Arena.any_exits_eq_false (fun heq => hne (heq ▸ haction)) houtcomes

/-- A line that has failed has changed nothing. -/
theorem exec_step_eq_error {e : RunError}
    (h : (step host calls x).exec p w = (.error e, q, v)) :
    q = p := by
  cases hc : x.content with
  | blank =>
    unfold step stepWith at h
    rw [hc] at h
    cases h
  | invalid e =>
    rw [exec_step_invalid hc] at h
    cases h
    rfl
  | act action =>
    rw [exec_step_act hc] at h
    rcases ho : (p.arena.outcomes calls action).exec (w.pause host) with
      ⟨_ | outcomes, w'⟩ <;>
      rw [ho] at h <;> cases h
    rfl

/-- **Taking a line**: its surroundings are closed, it is arrived at, and
executed. -/
theorem exec_take (x : Placed Step) (p : Progress) (w : World σ) :
    (take host calls x).exec p w =
      match (closeTo host calls x.depth).exec p w with
      | (.error e, q, v) => (.error e, q, v)
      | (.ok (), q, v) =>
        (step host calls x).exec { q with lastLine := x.line } v := by
  rw [take_eq, exec_bind]
  rcases (closeTo host calls x.depth).exec p w with ⟨_ | _, q, v⟩
  · rfl
  · show (arrive x.line >>= fun _ => step host calls x).exec q v = _
    rw [exec_bind, exec_arrive]

/-- A line that has been taken. -/
theorem exec_take_eq_ok {exits : Bool}
    (h : (take host calls x).exec p w = (.ok exits, q, v)) :
    ∃ p' w', (closeTo host calls x.depth).exec p w = (.ok (), p', w') ∧
      (step host calls x).exec { p' with lastLine := x.line } w'
      = (.ok exits, q, v) := by
  rw [exec_take] at h
  rcases hc : (closeTo host calls x.depth).exec p w with ⟨_ | _, p', w'⟩ <;>
      rw [hc] at h
  · cases h
  · exact ⟨p', w', rfl, h⟩

end Drive

end StreamScript
