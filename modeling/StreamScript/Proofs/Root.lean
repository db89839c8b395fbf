import StreamScript.Proofs.Branches
import StreamScript.Proofs.Moves
import StreamScript.Proofs.Reach

/-!
# What happens to the root

A run hands back what its root holds, also if it has failed. So it matters what
the root holds when a run fails, and a failure may come in the middle of much:
some branches folded and others not, children emptied, an inner scope closed
and an outer one still open. None of this is at the root. Only two kinds of
moves reach it, and both succeed: a line that stands in no scope, and the
closing of the last scope.

`Machine.Rooted` is what keeps the rest away: the scopes are stacked on the
root, and the branches of each lie behind those it was opened on.
-/

namespace StreamScript

variable {σ : Type} {host : Host σ} {calls : Callables σ} {token : Option Nat}

/-- **Scopes stacked on the root**: the last was opened on the root alone, and
the leaves, like the branches of every other scope, are behind those there were
before the scope. -/
def Stacked : List OpenScope → List Nat → Nat → Prop
  | [], leaves, size => leaves = [0] ∧ 0 < size
  | s :: outer, leaves, size =>
    (∀ i ∈ leaves, 0 < i ∧ i < size) ∧ s.mark ≤ size ∧
      Stacked outer s.parents s.mark

namespace Stacked

variable {scopes : List OpenScope} {leaves : List Nat} {size : Nat}

/-- There is always a root. -/
theorem size_pos (h : Stacked scopes leaves size) : 0 < size := by
  induction scopes generalizing leaves size with
  | nil => exact h.2
  | cons s outer ih => exact Nat.lt_of_lt_of_le (ih h.2.2) h.2.1

/-- The leaves are branches that are there. -/
theorem lt_size (h : Stacked scopes leaves size) : ∀ i ∈ leaves, i < size := by
  cases scopes with
  | nil =>
    obtain ⟨rfl, hpos⟩ := h
    intro i hi
    rwa [List.mem_singleton.1 hi]
  | cons s outer => exact fun i hi => (h.1 i hi).2

/-- Branches that are added at the end are of no matter to the scopes that are
open. -/
theorem mono {size' : Nat} (h : Stacked scopes leaves size)
    (hle : size ≤ size') :
    Stacked scopes leaves size' := by
  cases scopes with
  | nil => exact ⟨h.1, Nat.lt_of_lt_of_le h.2 hle⟩
  | cons s outer =>
    exact ⟨fun i hi => ⟨(h.1 i hi).1, Nat.lt_of_lt_of_le (h.1 i hi).2 hle⟩,
      Nat.le_trans h.2.1 hle, h.2.2⟩

/-- Where a scope is open the root is no leaf. -/
theorem leaves_pos (h : Stacked scopes leaves size) (hne : scopes ≠ []) :
    ∀ i ∈ leaves, 0 < i := by
  cases scopes with
  | nil => exact absurd rfl hne
  | cons s outer => exact fun i hi => (h.1 i hi).1

end Stacked

/-- **A machine whose branches grow from the root.** That children lie behind
their parents is what keeps the root out of everything that is done to a child.
-/
structure Machine.Rooted (m : Machine) : Prop where
  downward : m.arena.Downward
  stacked : Stacked m.scopes m.arena.leaves m.arena.branches.size

/-- The state that a run begins with. -/
theorem Machine.rooted_start (input : Value) (locals : Bindings Value) :
    (Progress.start input locals).machine.Rooted where
  downward := Arena.downward_root input locals
  stacked := ⟨rfl, Nat.one_pos⟩

namespace Drive

variable {s : OpenScope} {p q : Progress} {w v : World σ}

/-! ## Closing

A fold writes to the parents of a scope, and the root is a parent only of the
outermost one. So it is the outermost scope alone whose closing may change the
root, and it changes it when the fold has succeeded: the root is the only
parent there, and a fold that fails on a parent has not written to it. -/

/-- **A fold keeps the root**, unless it succeeds in folding into the root
itself. -/
theorem foldParent_root (calls : Callables σ) (s : OpenScope) (parent : Nat)
    (h : p.arena.Downward) (w : World σ) :
    let (r, q, _) := (foldParent calls s parent).exec p w
    q.arena.Downward ∧ q.arena.branches.size = p.arena.branches.size ∧
      (0 < parent ∨ r ≠ .ok () → q.arena.output = p.arena.output) := by
  rcases hf : (foldParent calls s parent).exec p w with ⟨e | _, q, v⟩
  · obtain rfl | rfl := exec_foldParent_eq_error hf
    · exact ⟨h, rfl, fun _ => rfl⟩
    · exact ⟨h.drain parent, Arena.size_drain _ _,
        fun _ => Arena.output_drain h parent⟩
  · obtain ⟨yields, x, _, _, rfl⟩ := exec_foldParent_eq_ok hf
    refine ⟨(h.drain parent).receive _ _ _, ?_, ?_⟩
    · exact (Arena.size_modify _ _ _).trans (Arena.size_drain _ _)
    · rintro (hpos | hne)
      · exact (Arena.output_modify_of_ne (Nat.ne_of_lt hpos) _ _).trans
          (Arena.output_drain h _)
      · exact absurd rfl hne

/-- Folding into branches that are not the root keeps it. The fold may fail at
any of the branches; those before it keep what they have got, but none of them
is the root. -/
theorem foldParents_root (calls : Callables σ) (s : OpenScope)
    (parents : List Nat) (h : p.arena.Downward) (w : World σ) :
    let (_, q, _) := (foldParents calls s parents).exec p w
    q.arena.Downward ∧ q.arena.branches.size = p.arena.branches.size ∧
      ((∀ i ∈ parents, 0 < i) → q.arena.output = p.arena.output) := by
  induction parents generalizing p w with
  | nil => exact ⟨h, rfl, fun _ => rfl⟩
  | cons parent parents ih =>
    have hp := foldParent_root calls s parent h w
    unfold foldParents
    rw [exec_bind]
    rcases hf : (foldParent calls s parent).exec p w with ⟨e | _, q, v⟩ <;>
        rw [hf] at hp
    · have hne : Except.error e ≠ .ok () := fun h => by cases h
      exact ⟨hp.1, hp.2.1, fun _ => hp.2.2 (.inr hne)⟩
    · obtain ⟨hdown, hsize, hout⟩ := ih hp.1 v
      refine ⟨hdown, hsize.trans hp.2.1, fun hpos => ?_⟩
      rw [hout fun i hi => hpos i (List.mem_cons_of_mem _ hi)]
      exact hp.2.2 (.inl (hpos parent List.mem_cons_self))

/-- Folding that fails keeps it in any case. -/
theorem foldParents_root_of_error {outer : List OpenScope} {size : Nat}
    {e : RunError} (h : p.arena.Downward)
    (hstacked : Stacked outer s.parents size)
    (hf : (foldParents calls s s.parents).exec p w = (.error e, q, v)) :
    q.arena.output = p.arena.output := by
  have hfold := foldParents_root calls s s.parents h w
  rw [hf] at hfold
  cases outer with
  | cons s' outer =>
    exact hfold.2.2 (hstacked.leaves_pos (List.cons_ne_nil s' outer))
  | nil =>
    -- The only fold is that into the root, and it is the one that has failed.
    rw [hstacked.1] at hf
    unfold foldParents at hf
    have hroot := foldParent_root calls s 0 h w
    rw [exec_bind] at hf
    rcases hf₀ : (foldParent calls s 0).exec p w with ⟨e' | _, q', v'⟩ <;>
      rw [hf₀] at hf hroot <;> cases hf
    exact hroot.2.2 (.inr fun hok => by cases hok)

/-- **Closing a scope keeps the root** if it fails, and also if another scope
is open below it. -/
theorem closeScope_root (host : Host σ) (calls : Callables σ)
    {outer : List OpenScope} (h : p.machine.Rooted) (hs : p.scopes = s :: outer)
    (w : World σ) :
    let (r, q, _) := (closeScope host calls).exec p w
    (r = .ok () → q.machine.Rooted ∧ q.scopes = outer ∧
      q.lastLine = p.lastLine ∧
      (outer ≠ [] → q.arena.output = p.arena.output)) ∧
    (r ≠ .ok () → q.lastLine = s.line ∧ q.arena.output = p.arena.output) := by
  have hstacked := h.stacked
  rw [show p.machine.scopes = s :: outer from hs] at hstacked
  obtain ⟨-, hmark, houter⟩ := hstacked
  -- The scope is off the stack while it is folded.
  generalize hp' : { p with machine := { p.machine with scopes := outer } } = p'
  have harena : p'.arena = p.arena := hp' ▸ rfl
  have hfold :=
    foldParents_root calls s s.parents (harena ▸ h.downward : p'.arena.Downward)
    (w.pause host)
  have hframe := exec_foldParents_frame calls s s.parents p' (w.pause host)
  rw [exec_closeScope_cons hs, exec_collect, hp']
  rcases hf : (foldParents calls s s.parents).exec p' (w.pause host) with
    ⟨e | _, q, v⟩ <;>
    rw [hf] at hfold hframe
  · refine ⟨nofun, fun _ => ⟨rfl, ?_⟩⟩
    show q.arena.output = p.arena.output
    rw [← harena]
    exact foldParents_root_of_error (harena ▸ h.downward) houter hf
  · refine ⟨fun _ => ⟨⟨hfold.1.ascend s, ?_⟩, ?_, ?_, ?_⟩,
      fun hne => absurd rfl hne⟩
    · show Stacked q.scopes s.parents (q.arena.ascend s).branches.size
      rw [hframe.1, Arena.size_ascend, hfold.2.1, harena,
        Nat.min_eq_left hmark, ← hp']
      exact houter
    · show q.scopes = outer
      rw [hframe.1, ← hp']
    · show q.lastLine = p.lastLine
      rw [hframe.2, ← hp']
    · intro hne
      show (q.arena.ascend s).output = p.arena.output
      rw [Arena.output_ascend houter.size_pos,
        hfold.2.2 (houter.leaves_pos hne), harena]

/-- The same for several scopes. -/
theorem closeScopes_root (host : Host σ) (calls : Callables σ) (n : Nat)
    (h : p.machine.Rooted) (hn : n ≤ p.scopes.length) (w : World σ) :
    let (r, q, _) := (closeScopes host calls n).exec p w
    (r = .ok () → q.machine.Rooted ∧ q.scopes = p.scopes.drop n ∧
      q.lastLine = p.lastLine ∧
      (n < p.scopes.length → q.arena.output = p.arena.output)) ∧
    (r ≠ .ok () → (∃ s ∈ p.scopes, q.lastLine = s.line) ∧
      q.arena.output = p.arena.output) := by
  induction n generalizing p w with
  | zero =>
    exact ⟨fun _ => ⟨h, rfl, rfl, fun _ => rfl⟩, fun hne => absurd rfl hne⟩
  | succ n ih =>
    cases hs : p.scopes with
    | nil =>
      rw [hs] at hn
      cases hn
    | cons s outer =>
      rw [hs] at hn
      have hfirst := closeScope_root host calls h hs w
      unfold closeScopes
      rw [exec_bind]
      rcases hc : (closeScope host calls).exec p w with ⟨e | _, p₁, w₁⟩ <;>
          rw [hc] at hfirst
      · obtain ⟨hline, hout⟩ := hfirst.2 nofun
        exact ⟨nofun, fun _ => ⟨⟨s, List.mem_cons_self, hline⟩, hout⟩⟩
      · obtain ⟨hrooted, hscopes, hline, hout⟩ := hfirst.1 rfl
        have hrest := ih hrooted (hscopes ▸ Nat.le_of_succ_le_succ hn) w₁
        dsimp only
        rcases hc' : (closeScopes host calls n).exec p₁ w₁ with ⟨e | _, q, v⟩
            <;> rw [hc'] at hrest
        · obtain ⟨⟨s', hs', hline'⟩, hout'⟩ := hrest.2 nofun
          refine ⟨nofun, fun _ =>
            ⟨⟨s', List.mem_cons_of_mem s (hscopes ▸ hs'), hline'⟩, ?_⟩⟩
          rw [hout']
          -- A scope that fails to close was open below the first, so that one
          -- has kept the root.
          exact hout (by rw [← hscopes]; exact List.ne_nil_of_mem hs')
        · obtain ⟨hrooted', hscopes', hline', hout'⟩ := hrest.1 rfl
          refine ⟨fun _ => ⟨hrooted', ?_, hline'.trans hline, fun hlt => ?_⟩,
            fun hne => absurd rfl hne⟩
          · rw [hscopes', hscopes]
            rfl
          · have hlt' : n < outer.length := Nat.lt_of_succ_lt_succ hlt
            rw [hout' (hscopes ▸ hlt')]
            exact hout
              (List.ne_nil_of_length_pos (Nat.lt_of_le_of_lt (Nat.zero_le n) hlt'))

/-- **Closing the scopes deeper than a line keeps the root**, if it fails or if
the line stands in a scope. A failure is blamed on one of the scopes that are
closed, at the line that has opened it. -/
theorem closeTo_root (host : Host σ) (calls : Callables σ) {depth : Nat}
    (h : p.machine.Rooted) (hdepth : depth ≤ p.scopes.length) (w : World σ) :
    let (r, q, _) := (closeTo host calls depth).exec p w
    (r = .ok () → q.machine.Rooted ∧ q.scopes.length = depth ∧
      q.lastLine = p.lastLine ∧
      (∀ s ∈ q.scopes, s ∈ p.scopes) ∧
      (0 < depth → q.arena.output = p.arena.output)) ∧
    (r ≠ .ok () → (∃ s ∈ p.scopes, q.lastLine = s.line) ∧
      q.arena.output = p.arena.output) := by
  have hclose := closeScopes_root host calls (p.scopes.length - depth) h
    (Nat.sub_le _ _) w
  rw [exec_closeTo]
  rcases hc : (closeScopes host calls (p.scopes.length - depth)).exec p
    w with ⟨e | _, q, v⟩ <;>
    rw [hc] at hclose
  · exact ⟨nofun, hclose.2⟩
  · obtain ⟨hrooted, hscopes, hline, hout⟩ := hclose.1 rfl
    refine ⟨fun _ => ⟨hrooted, ?_, hline, ?_, fun hpos => hout (by omega)⟩,
      fun hne => absurd rfl hne⟩
    · rw [hscopes, List.length_drop]
      omega
    · intro s hs
      exact List.mem_of_mem_drop (hscopes ▸ hs)

/-! ## Executing

A line writes to the leaves. In a scope the leaves are behind the root, and
with no scope open the root is the only leaf. What a line leaves on the root is
then the stream of its one outcome. -/

end Drive

/-- A line keeps the root if it is executed on other branches. -/
theorem Arena.commit_root {a : Arena} (h : a.Downward)
    (settled : List (Nat × Outcome))
    (hlt : ∀ x ∈ settled, x.1 < a.branches.size) :
    (a.commit settled).Downward ∧
      a.branches.size ≤ (a.commit settled).branches.size ∧
      (a.commit settled).leaves = a.leaves ∧
      ((∀ x ∈ settled, 0 < x.1) → (a.commit settled).output = a.output) := by
  induction settled generalizing a with
  | nil => exact ⟨h, Nat.le_refl _, rfl, fun _ => rfl⟩
  | cons x settled ih =>
    obtain ⟨leaf, outcome⟩ := x
    have hleaf : leaf < a.branches.size := hlt _ List.mem_cons_self
    have hsize := Arena.size_settle a leaf outcome
    obtain ⟨hdown, hle, hleaves, hout⟩ := ih (h.settle hleaf outcome)
        fun x hx => by
      have := hlt x (List.mem_cons_of_mem _ hx)
      omega
    refine ⟨hdown, Nat.le_trans (by omega) hle, hleaves, fun hpos => ?_⟩
    refine (hout fun x hx => hpos x (List.mem_cons_of_mem _ hx)).trans ?_
    exact Arena.output_settle_of_pos (hpos _ List.mem_cons_self) hleaf outcome

/-- **A line keeps the branches on the root**, and in a scope it keeps the root
as well. -/
theorem Machine.Rooted.after {m : Machine} (h : m.Rooted) (line : Nat)
    (action : Action) (outcomes : List Outcome) :
    (m.after line action outcomes).Rooted ∧
      (m.scopes ≠ [] → (m.after line action outcomes).arena.output
        = m.arena.output) := by
  have hfst : ∀ x ∈ m.arena.leaves.zip outcomes, x.1 ∈ m.arena.leaves :=
    fun x hx => (List.of_mem_zip hx).1
  obtain ⟨hdown, hle, hleaves, hout⟩ := Arena.commit_root h.downward
    (m.arena.leaves.zip outcomes) fun x hx => h.stacked.lt_size _ (hfst x hx)
  have hkeep : m.scopes ≠ [] →
      (m.arena.commit (m.arena.leaves.zip outcomes)).output = m.arena.output :=
    fun hne => hout fun x hx => h.stacked.leaves_pos hne _ (hfst x hx)
  unfold Machine.after
  cases action.opened? with
  | none =>
    refine ⟨⟨hdown, ?_⟩, hkeep⟩
    dsimp only
    rw [hleaves]
    exact h.stacked.mono hle
  | some opened =>
    refine ⟨⟨hdown, ?_, hle, h.stacked⟩, hkeep⟩
    intro i hi
    obtain ⟨hge, hlt⟩ := List.mem_range'_1.1 hi
    have := h.stacked.size_pos
    refine ⟨by omega, ?_⟩
    show i < (m.arena.commit _).branches.size
    omega

namespace Drive

variable {s : OpenScope} {p q : Progress} {w v : World σ}

/-- **On the root alone a line leaves what it has found there.** The root is
the only leaf, so there is one outcome, and its stream is written to the root
whether or not the line opens a scope on it. -/
theorem output_after_root {m : Machine} (h : m.Rooted) (hscopes : m.scopes = [])
    {action : Action} {outcomes : List Outcome} (line : Nat)
    (ho : (m.arena.outcomes calls action).exec w = (.ok outcomes, v)) :
    ∃ outcome, (m.arena.outcome calls action 0).exec w = (.ok outcome, v) ∧
      (m.after line action outcomes).arena.output = outcome.stream := by
  have hstacked := h.stacked
  rw [hscopes] at hstacked
  obtain ⟨hleaves, hpos⟩ := hstacked
  unfold Arena.outcomes at ho
  rw [hleaves, List.mapM_cons, Act.exec_bind] at ho
  rcases h₀ : (m.arena.outcome calls action 0).exec w with ⟨e | outcome, w'⟩ <;>
    rw [h₀] at ho <;> cases ho
  refine ⟨outcome, rfl, ?_⟩
  have hcommit : (m.arena.commit (m.arena.leaves.zip [outcome])).output
      = outcome.stream := by
    rw [hleaves]
    exact Arena.output_settle_root hpos outcome
  unfold Machine.after
  cases action.opened? <;> exact hcommit

/-- **Taking a line keeps the root** if the line stands in a scope. It leaves
the scopes that the line stands in, and the one that it opens; of each it is
known where it was opened, which is what a failure is blamed on. -/
theorem take_root (h : p.machine.Rooted) {x : Placed Step}
    (hx : x.content.isBlank = false) (hdepth : x.depth ≤ p.scopes.length)
    {exits : Bool} (ht : (take host calls x).exec p w = (.ok exits, q, v)) :
    q.machine.Rooted ∧
      q.scopes.length = x.depth + (if x.content.opened?.isSome then 1 else 0) ∧
      (∀ s ∈ q.scopes, s ∈ p.scopes ∨ s.line = x.line) ∧
      (0 < x.depth → q.arena.output = p.arena.output) := by
  obtain ⟨p₁, w₁, hclose, hstep⟩ := exec_take_eq_ok ht
  have hroot := closeTo_root host calls h hdepth w
  rw [hclose] at hroot
  obtain ⟨hrooted, hlength, -, hsub, hout⟩ := hroot.1 rfl
  obtain ⟨action, outcomes, haction, -, -, rfl⟩ := exec_step_eq_ok hx hstep
  have hafter := hrooted.after x.line action outcomes
  have hscopes := p₁.machine.after_scopes x.line action outcomes
  have hopened : x.content.opened? = action.opened? := by
    rw [haction]
    rfl
  rw [hopened]
  refine ⟨hafter.1, ?_, fun s hs => ?_,
    fun hpos => (hafter.2 ?_).trans (hout hpos)⟩
  · show (p₁.machine.after x.line action outcomes).scopes.length = _
    rw [hscopes]
    cases action.opened? with
    | none => exact hlength
    | some opened => exact congrArg Nat.succ hlength
  · rw [show Progress.scopes _ = _ from hscopes] at hs
    cases ho : action.opened? with
    | none =>
      rw [ho] at hs
      exact .inl (hsub s hs)
    | some opened =>
      rw [ho] at hs
      obtain rfl | hs := List.mem_cons.1 hs
      · exact .inr rfl
      · exact .inl (hsub s hs)
  · exact List.ne_nil_of_length_pos (hlength ▸ hpos)

/-- Closing scopes keeps the machine on its root. -/
theorem closeTo_rooted {depth : Nat} (h : p.machine.Rooted)
    (hclose : (closeTo host calls depth).exec p w = (.ok (), q, v)) :
    q.machine.Rooted ∧ q.lastLine = p.lastLine := by
  have hroot :=
    closeScopes_root host calls (p.scopes.length - depth) h (Nat.sub_le _ _) w
  rw [exec_closeTo] at hclose
  rw [hclose] at hroot
  exact ⟨(hroot.1 rfl).1, (hroot.1 rfl).2.2.1⟩

/-- A run that begins on its root stays there. Blank lines do nothing, and of
another line it is its closing and its execution, both of which have been
looked at. -/
theorem Reaches.rooted {l l' : List (Placed Step)}
    (h : Reaches host calls token l p w l' q v) (hp : p.machine.Rooted) :
    q.machine.Rooted := by
  induction h with
  | here => exact hp
  | blank _ _ ih => exact ih hp
  | line hs ht _ _ ih =>
    obtain ⟨p₁, w₁, hclose, hstep⟩ := exec_take_eq_ok ht
    obtain ⟨action, outcomes, -, -, -, rfl⟩ := exec_step_eq_ok hs hstep
    exact ih ((closeTo_rooted hp hclose).1.after _ action outcomes).1

end Drive

end StreamScript
