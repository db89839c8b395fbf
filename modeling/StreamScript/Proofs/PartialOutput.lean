import Mathlib
import StreamScript.Proofs.Indentation
import StreamScript.Proofs.Root
import StreamScript.Proofs.Steady
import StreamScript.Proofs.Supersession

/-!
# What a failed run hands back

A run that fails hands back what its root holds. `Program.output_of_incomplete`
says what that is in terms of runs that do not fail. Of the lines that stand in
no scope take the last that is not behind the line the failure is put down to.
The lines before it, run on their own, come to their end, and what they leave is
what the failed run hands back. Only if that last line is a chain into a scope,
and its scope has been opened, has the chain been evaluated on top of it.

The proof follows the run from line to line and keeps hold of that last line as
long as its scope is open (`Drive.Pending`): the lines before it complete, the
root holds what it found there, and every open scope has been opened by it or
by a line behind it.
-/

namespace StreamScript

variable {σ : Type} {host : Host σ} {calls : Callables σ} {token : Option Nat}

/-! ## Lines that open a scope

A line in no scope writes to the root before its scope is closed. Of the lines
that open a scope only a chain into a scope does so, and what it writes is what
the chain has come to. All others leave the root as it was. -/

/-- **A line that opens a scope** leaves the stream alone, but for a chain into
a scope, which leaves what the chain has come to. Only in the latter case has
anything been done on the branch before the scope is opened, and it is the one
exception in what a failed run hands back: the line with the scope has changed
the stream although the scope has not been closed. -/
theorem Action.execute_of_opened {action : Action} {scope : Scope}
    {outcome : Outcome} {w v : World σ} (hopened : action.opened?.isSome)
    (h : (action.execute calls scope).exec w = (.ok outcome, v)) :
    ((∀ head middle s, action ≠ .chain head middle (.scope s)) ∧
        outcome.stream = scope.stream) ∨
      ∃ head middle s v', action = .chain head middle (.scope s) ∧
        (evalChain calls scope (head :: middle)).exec w
        = (.ok outcome.stream, v') := by
  match action with
  | .exit | .eval _ | .store _ _ | .chain _ _ (.expr _) => cases hopened
  | .scope s | .storeScope _ s =>
    obtain ⟨elements, w₁, _, h⟩ := Act.exec_bind_eq_ok.1 h
    cases h
    exact .inl ⟨nofun, rfl⟩
  | .chain head middle (.scope s) =>
    obtain ⟨x, w₁, hx, h⟩ := Act.exec_bind_eq_ok.1 h
    obtain ⟨elements, w₂, _, h⟩ := Act.exec_bind_eq_ok.1 h
    cases h
    exact .inr ⟨head, middle, s, w₁, rfl, hx⟩

/-! ## Lines that come to their end

That lines complete is said of a run from a given place in a given world, and
what it comes to is named: where it is in the end, and the world. Lines that
are run on their own are compared with it later, in worlds of their own. -/

namespace Drive

/-- **Lines that a run goes through to their end**, closing the scopes that are
left. This is a run of `l` as if nothing stood behind it. What a failed run
hands back is compared with such a run of the lines before the one that it
falls back to. -/
def Completes (host : Host σ) (calls : Callables σ) (token : Option Nat)
    (l : List (Placed Step)) (p : Progress) (w : World σ) (q : Progress)
    (v : World σ) : Prop :=
  ∃ p' w', Reaches host calls token l p w [] p' w' ∧
    (closeTo host calls 0).exec p' w' = (.ok (), q, v)

/-- Such a run ends, and is done. -/
theorem Completes.exec_eq {l : List (Placed Step)} {p q : Progress}
    {w v : World σ} (h : Completes host calls token l p w q v) :
    (lines host calls token l).exec p w = (.ok .done, q, v) := by
  obtain ⟨p', w', hreach, hclose⟩ := h
  rw [hreach.exec_eq]
  exact (Ends.finished hclose).exec_eq

/-- Closing what is closed already does nothing. -/
theorem exec_closeTo_of_nil {p : Progress} (h : p.scopes = []) (depth : Nat)
    (w : World σ) :
    (closeTo host calls depth).exec p w = (.ok (), p, w) := by
  rw [exec_closeTo, h]
  show (closeScopes host calls (0 - depth)).exec p w = _
  rw [Nat.zero_sub]
  rfl

/-! ## The last line in no scope

Two things are carried along with a run. Whether a scope is open, and if one
is, which line has opened the outermost: it stands in no scope, and the lines
behind it that have been taken all stand in scopes. As long as that is so the
root is not written to, so it holds what that line left there. A line in no
scope that opens none writes to the root, and then no scope is open and there
is nothing to remember. -/

/-- **A line in no scope whose own scope is still open**, with the lines before
it and behind it. The root holds what it left there when the lines before it
were at an end. -/
structure Pending (host : Host σ) (calls : Callables σ) (token : Option Nat)
    (start : Progress) (w : World σ) (before : List (Placed Step))
    (o : Placed Step) (mid : List (Placed Step)) (p : Progress) : Prop where
  shown : o.content.isBlank = false
  outermost : o.depth = 0
  inner : ∀ y ∈ mid, y.content.isBlank = false → 0 < y.depth
  passed : ∃ q v, Reaches host calls token (before ++ [o]) start w [] q v
  root : ∃ q v action outcome v',
    Completes host calls token before start w q v ∧
    q.machine.Rooted ∧ q.scopes = [] ∧ o.content = .act action ∧
    action.opened?.isSome ∧
    (q.arena.outcome calls action 0).exec (v.pause host) = (.ok outcome, v') ∧
    p.arena.output = outcome.stream
  opened : ∀ s ∈ p.scopes, ∃ y ∈ o :: mid, s.line = y.line

/-- **Where a run stands** behind some lines: no scope is open, or there is a
line that has opened the outermost. Lines inside a scope work on branches below
the root, so as long as a scope is open the root has been left alone since the
line that opened the outermost. -/
structure Stands (host : Host σ) (calls : Callables σ) (token : Option Nat)
    (start : Progress) (w : World σ) (done : List (Placed Step))
    (p : Progress) : Prop where
  rooted : p.machine.Rooted
  outermost : p.scopes = [] ∨
    ∃ before o mid, done = before ++ o :: mid ∧
      Pending host calls token start w before o mid p

variable {start p q : Progress} {w u v : World σ} {done l : List (Placed Step)}
    {x : Placed Step}

/-- **The scope stays open** over one more line that stands in it, if that
leaves the root alone and opens no scope but its own. The new line may close
inner scopes and open another inner one; by `hscopes` every scope that is open
afterwards was open before or belongs to the line itself, and by `hout` the
root still shows what it did. -/
theorem Pending.snoc {before mid : List (Placed Step)} {o : Placed Step}
    (hp : Pending host calls token start w before o mid p)
    (hx : x.content.isBlank = false → 0 < x.depth)
    (hout : q.arena.output = p.arena.output)
    (hscopes : ∀ s ∈ q.scopes, s ∈ p.scopes ∨ s.line = x.line) :
    Pending host calls token start w before o (mid ++ [x]) q where
  shown := hp.shown
  outermost := hp.outermost
  inner y hy hyb := by
    obtain hy | hy := List.mem_append.1 hy
    · exact hp.inner y hy hyb
    · obtain rfl := List.mem_singleton.1 hy
      exact hx hyb
  passed := hp.passed
  root := by
    rw [hout]
    exact hp.root
  opened s hs := by
    obtain hs | hline := hscopes s hs
    · obtain ⟨y, hy, hline⟩ := hp.opened s hs
      exact ⟨y, List.mem_append_left [x] hy, hline⟩
    · exact ⟨x, List.mem_append_right (o :: mid) List.mem_cons_self, hline⟩

/-- An empty line changes nothing. -/
theorem Stands.blank (h : Stands host calls token start w done p)
    (hx : x.content.isBlank = true) :
    Stands host calls token start w (done ++ [x]) p where
  rooted := h.rooted
  outermost := by
    refine h.outermost.imp_right ?_
    rintro ⟨before, o, mid, rfl, hp⟩
    refine ⟨before, o, mid ++ [x], by rw [List.append_assoc]; rfl, ?_⟩
    exact hp.snoc (fun hx' => absurd hx' (by simp [hx])) rfl fun s hs => .inl hs

/-- **A line in no scope that opens one** is the last of its kind once it has
been taken. To take it all other scopes have been closed, so the lines before
it have come to their end, and what is on the root then is what they have left.
-/
theorem Pending.of_take (h : p.machine.Rooted)
    (hreach : Reaches host calls token (done ++ x :: l) start w (x :: l) p u)
    (hx : x.content.isBlank = false) (hzero : x.depth = 0)
    (hopened : x.content.opened?.isSome) {exits : Bool}
    (ht : (Drive.take host calls x).exec p u = (.ok exits, q, v))
    (hlook : exits = false → isStale token (v.pause host) = false) :
    Pending host calls token start w done x [] q := by
  obtain ⟨p₁, w₁, hclose, hstep⟩ := exec_take_eq_ok ht
  have hroot := closeTo_root host calls h (hzero ▸ Nat.zero_le _) u
  rw [hclose] at hroot
  obtain ⟨hrooted, hlength, -⟩ := hroot.1 rfl
  -- No scope is open any more, so the line has been executed on the root.
  have hnil : p₁.scopes = [] :=
    List.eq_nil_of_length_eq_zero (hlength.trans hzero)
  obtain ⟨action, outcomes, haction, houtcomes, hexits, rfl⟩ :=
    exec_step_eq_ok hx hstep
  change (p₁.arena.outcomes calls action).exec (w₁.pause host)
    = (.ok outcomes, v) at houtcomes
  rw [haction] at hopened
  change action.opened?.isSome at hopened
  have hexit : action ≠ .exit := by
    rintro rfl
    cases hopened
  obtain rfl : exits = false :=
    hexits.trans (Arena.any_exits_eq_false hexit houtcomes)
  obtain ⟨outcome, houtcome, hstream⟩ :=
    output_after_root hrooted hnil x.line houtcomes
  have hdone := hreach.before
  refine ⟨hx, hzero, fun y hy => absurd hy List.not_mem_nil, ?_, ?_,
    fun s hs => ?_⟩
  · exact ⟨_, _,
      (hdone.append [x]).trans (.line hx ht (hlook rfl) (.here _ _ _))⟩
  · exact ⟨p₁, w₁, action, outcome, v, ⟨p, u, hdone, hzero ▸ hclose⟩, hrooted,
      hnil, haction, hopened, houtcome, hstream⟩
  · have hscopes := p₁.machine.after_scopes x.line action outcomes
    obtain ⟨opened, ho⟩ := Option.isSome_iff_exists.1 hopened
    rw [show Progress.scopes _ = _ from hscopes, ho, show p₁.machine.scopes = []
      from hnil] at hs
    obtain rfl := List.mem_singleton.1 hs
    exact ⟨x, List.mem_cons_self, rfl⟩

/-- **A line that has been taken**: it is the last one in no scope, or that
stays the same. A line at depth 0 closes all scopes and begins anew, as the
last line in no scope. Any deeper line belongs to the scope that is pending,
which exists because the lines are nested. -/
theorem Stands.take (h : Stands host calls token start w done p)
    (hreach : Reaches host calls token (done ++ x :: l) start w (x :: l) p u)
    (hx : x.content.isBlank = false) (hnested : Nested p.scopes.length (x :: l))
    {exits : Bool} (ht : (Drive.take host calls x).exec p u = (.ok exits, q, v))
    (hlook : exits = false → isStale token (v.pause host) = false) :
    Stands host calls token start w (done ++ [x]) q ∧
    Nested q.scopes.length l := by
  unfold Nested at hnested
  rw [if_neg (by simp [hx])] at hnested
  obtain ⟨hdepth, hnested⟩ := hnested
  obtain ⟨hrooted, hlength, hscopes, hout⟩ := take_root h.rooted hx hdepth ht
  refine ⟨⟨hrooted, ?_⟩, hlength ▸ hnested⟩
  by_cases hzero : x.depth = 0
  · cases hopened : x.content.opened?.isSome with
    | false =>
      rw [hzero, hopened] at hlength
      exact .inl (List.eq_nil_of_length_eq_zero hlength)
    | true =>
      exact .inr ⟨done, x, [], rfl,
        .of_take h.rooted hreach hx hzero hopened ht hlook⟩
  · -- The outermost scope has been opened by a line before, and stays open.
    have hpos : 0 < x.depth := Nat.pos_of_ne_zero hzero
    have hne : p.scopes ≠ [] :=
      List.ne_nil_of_length_pos (Nat.lt_of_lt_of_le hpos hdepth)
    obtain ⟨before, o, mid, rfl, hp⟩ := h.outermost.resolve_left hne
    refine .inr ⟨before, o, mid ++ [x], by rw [List.append_assoc]; rfl, ?_⟩
    exact hp.snoc (fun _ => hpos) (hout hpos) hscopes

/-- **Where a run stands at any place it reaches**, by induction on the lines
that it has taken. The induction is on the way from place to place (`Reaches`),
not on the lines: an empty line is passed over without being taken. -/
theorem Stands.reaches (h : Stands host calls token start w done p)
    (hreach : Reaches host calls token (done ++ l) start w l p u)
    (hnested : Nested p.scopes.length l) {l' : List (Placed Step)}
    (hr : Reaches host calls token l p u l' q v) :
    ∃ done', done ++ l = done' ++ l' ∧ Stands host calls token start w done' q ∧
      Nested q.scopes.length l' := by
  induction hr generalizing done with
  | here => exact ⟨done, rfl, h, hnested⟩
  | @blank x l l' p q u v hx hr ih =>
    rw [show done ++ x :: l = (done ++ [x]) ++ l by
      rw [List.append_assoc]; rfl] at hreach ⊢
    refine ih (h.blank hx) (hreach.trans (.blank hx (.here _ _ _))) ?_
    unfold Nested at hnested
    rwa [if_pos hx] at hnested
  | @line x l l' p p₁ q u u₁ v hx ht hf hr ih =>
    obtain ⟨hstands, hnested'⟩ := h.take hreach hx hnested ht fun _ => hf
    rw [show done ++ x :: l = (done ++ [x]) ++ l by
      rw [List.append_assoc]; rfl] at hreach ⊢
    exact ih hstands (hreach.trans (.line hx ht hf (.here _ _ _))) hnested'

/-! ## The line that a failure goes back to

A run can fail in two moments. While a line is executed, it is put down to that
line. While a scope is closed, it is put down to the line that has opened the
scope, and the line for which it was closed is not reached. In both cases the
last line in no scope that is not behind it is the one that is remembered, or
the failed line itself. -/

/-- **What a failed run leaves behind**: there is a line in no scope, the last
that is not behind the line the failure is put down to. The lines before it
complete. If the run has not come past it, the root holds what they leave, and
otherwise what it has found there. -/
def FallsBack (host : Host σ) (calls : Callables σ) (token : Option Nat)
    (start : Progress) (w : World σ) (steps : List (Placed Step))
    (q : Progress) : Prop :=
  ∃ before o after, steps = before ++ o :: after ∧ o.content.isBlank = false ∧
    o.depth = 0 ∧
    o.line ≤ q.lastLine ∧
    (∀ y ∈ after, y.content.isBlank = false → y.depth = 0 →
      q.lastLine < y.line) ∧
    ∃ q₀ v₀, Completes host calls token before start w q₀ v₀ ∧
      q₀.machine.Rooted ∧
      q₀.scopes = [] ∧
      ((¬∃ p u, Reaches host calls token steps start w after p u) ∧
          q.arena.output = q₀.arena.output ∨
        (∃ p u, Reaches host calls token steps start w after p u) ∧
          ∃ action outcome v', o.content = .act action ∧ action.opened?.isSome ∧
            (q₀.arena.outcome calls action 0).exec (v₀.pause host)
            = (.ok outcome, v') ∧
            q.arena.output = outcome.stream)

/-- A failure inside the outermost scope goes back to the line that has opened
it. -/
theorem Pending.fallsBack {before front back mid : List (Placed Step)}
    {o : Placed Step} (hp : Pending host calls token start w before o mid p)
    (hsorted : (before ++ o :: (front ++ back)).Pairwise fun x y =>
      x.line < y.line)
    (hfront : ∀ y ∈ front, y.content.isBlank = false → 0 < y.depth)
    (hline : ∃ y ∈ o :: front, q.lastLine = y.line)
    (hout : q.arena.output = p.arena.output) :
    FallsBack host calls token start w (before ++ o :: (front ++ back)) q := by
  obtain ⟨q₀, v₀, action, outcome, v', hcomplete, hrooted, hnil, haction, hsome,
    houtcome, hstream⟩ := hp.root
  obtain ⟨_, hsorted, -⟩ := List.pairwise_append.1 hsorted
  obtain ⟨hfirst, hsorted⟩ := List.pairwise_cons.1 hsorted
  obtain ⟨-, -, hback⟩ := List.pairwise_append.1 hsorted
  obtain ⟨y, hy, hline⟩ := hline
  refine ⟨before, o, front ++ back, rfl, hp.shown, hp.outermost, ?_, ?_, q₀, v₀,
    hcomplete, hrooted, hnil, .inr ⟨?_, action, outcome, v', haction, hsome,
      houtcome, hout.trans hstream⟩⟩
  · rw [hline]
    obtain rfl | hy := List.mem_cons.1 hy
    · exact Nat.le_refl _
    · exact Nat.le_of_lt (hfirst y (List.mem_append_left back hy))
  · intro z hz hzb hzd
    obtain hz | hz := List.mem_append.1 hz
    · exact absurd (hfront z hz hzb) (by omega)
    · rw [hline]
      obtain rfl | hy := List.mem_cons.1 hy
      · exact hfirst z (List.mem_append_right front hz)
      · exact hback y hy z hz
  · obtain ⟨p₁, u₁, hpassed⟩ := hp.passed
    refine ⟨p₁, u₁, ?_⟩
    rw [show before ++ o :: (front ++ back)
        = (before ++ [o]) ++ (front ++ back) by
      rw [List.append_assoc]; rfl]
    exact hpassed.append (front ++ back)

/-- A scope that fails to close goes back to the line that has opened the
outermost. -/
theorem Stands.fallsBack_of_close {rest : List (Placed Step)} {e : RunError}
    {depth : Nat} (h : Stands host calls token start w done p)
    (hsorted : (done ++ rest).Pairwise fun x y => x.line < y.line)
    (hdepth : depth ≤ p.scopes.length)
    (hclose : (closeTo host calls depth).exec p u = (.error e, q, v)) :
    FallsBack host calls token start w (done ++ rest) q := by
  have hroot := closeTo_root host calls h.rooted hdepth u
  rw [hclose] at hroot
  obtain ⟨⟨s, hs, hline⟩, hout⟩ := hroot.2 nofun
  obtain ⟨before, o, mid, rfl, hp⟩ :=
    h.outermost.resolve_left (List.ne_nil_of_mem hs)
  rw [show before ++ o :: mid ++ rest = before ++ o :: (mid ++ rest) by
    rw [List.append_assoc]; rfl] at hsorted ⊢
  obtain ⟨y, hy, hsline⟩ := hp.opened s hs
  exact hp.fallsBack hsorted hp.inner ⟨y, hy, hline.trans hsline⟩ hout

/-- A line that fails goes back to itself if it stands in no scope, and
otherwise to the line that has opened the outermost. A failure before the line
is executed is one of a scope that could not be closed. -/
theorem Stands.fallsBack_of_take {e : RunError}
    (h : Stands host calls token start w done p)
    (hsorted : (done ++ x :: l).Pairwise fun x y => x.line < y.line)
    (hreach : Reaches host calls token (done ++ x :: l) start w (x :: l) p u)
    (hx : x.content.isBlank = false) (hdepth : x.depth ≤ p.scopes.length)
    (ht : (Drive.take host calls x).exec p u = (.error e, q, v)) :
    FallsBack host calls token start w (done ++ x :: l) q := by
  have ht' := ht
  rw [exec_take] at ht
  rcases hclose : (closeTo host calls x.depth).exec p u with ⟨e' | _, p₁, u₁⟩
      <;> rw [hclose] at ht
  · cases ht
    exact h.fallsBack_of_close hsorted hdepth hclose
  · obtain rfl := exec_step_eq_error ht
    have hroot := closeTo_root host calls h.rooted hdepth u
    rw [hclose] at hroot
    obtain ⟨hrooted, hlength, -, -, hout⟩ := hroot.1 rfl
    by_cases hzero : x.depth = 0
    · have hnil : p₁.scopes = [] :=
        List.eq_nil_of_length_eq_zero (hlength.trans hzero)
      refine ⟨done, x, l, rfl, hx, hzero, Nat.le_refl _, ?_, p₁, u₁,
        ⟨p, u, hreach.before, hzero ▸ hclose⟩, hrooted, hnil, .inl ⟨?_, rfl⟩⟩
      · intro y hy _ _
        have hcons := (List.pairwise_append.1 hsorted).2.1
        exact (List.pairwise_cons.1 hcons).1 y hy
      · -- A run that came past the line would have taken it.
        rintro ⟨p₂, u₂, hpast⟩
        cases hreach.linear hpast (Nat.le_succ _) with
        | blank hx' => exact absurd hx' (by simp [hx])
        | line _ ht₂ =>
          rw [ht'] at ht₂
          cases ht₂
    · have hpos : 0 < x.depth := Nat.pos_of_ne_zero hzero
      have hne : p.scopes ≠ [] :=
        List.ne_nil_of_length_pos (Nat.lt_of_lt_of_le hpos hdepth)
      obtain ⟨before, o, mid, rfl, hp⟩ := h.outermost.resolve_left hne
      rw [show before ++ o :: mid ++ x :: l
          = before ++ o :: ((mid ++ [x]) ++ l) by
        rw [List.append_assoc, List.append_assoc]; rfl] at hsorted ⊢
      refine hp.fallsBack hsorted (fun y hy hyb => ?_) ⟨x, by simp, rfl⟩
        (hout hpos)
      obtain hy | hy := List.mem_append.1 hy
      · exact hp.inner y hy hyb
      · rwa [List.mem_singleton.1 hy]

/-- **Every failed run of nested lines falls back** to a line in no scope. A
run fails in a line or while it closes what is left in the end, and either way
stands at a place that it has reached. What the root shows there is what it
showed behind the line that opened the outermost scope, or behind the last
line. -/
theorem fallsBack_of_error {input : Value} {locals : Bindings Value}
    {e : RunError} (hnested : Nested 0 l)
    (hsorted : l.Pairwise fun x y => x.line < y.line)
    (h : (lines host calls token l).exec (.start input locals) w
      = (.error e, q, v)) :
    FallsBack host calls token (.start input locals) w l q := by
  obtain ⟨l', p', u, hreach, hend⟩ := exists_reaches_ends host calls token l
    (.start input locals) w
  have hstart : Stands host calls token (.start input locals) w []
      (.start input locals) :=
    ⟨Machine.rooted_start input locals, .inl rfl⟩
  obtain ⟨done, rfl, hstands, hnested'⟩ :=
    hstart.reaches (.here _ _ _) (p := .start input locals) hnested hreach
  rw [h] at hend
  generalize ho : ((.error e, q, v) : Except RunError Ending × Progress × World
    σ) = o at hend
  -- Of the four ways to end a run three may fail, and two of them in closing.
  cases hend with
  | @finished _ _ r _ _ hclose =>
    cases r <;> cases ho
    exact hstands.fallsBack_of_close hsorted (Nat.zero_le _) hclose
  | failed hx ht =>
    cases ho
    unfold Nested at hnested'
    rw [if_neg (by simp [hx])] at hnested'
    exact hstands.fallsBack_of_take hsorted hreach hx hnested'.1 ht
  | @exited x l _ _ _ _ r _ _ hx ht hclose =>
    cases r <;> cases ho
    have htaken := (hstands.take hreach hx hnested' ht fun h => by cases h).1
    rw [show done ++ x :: l = (done ++ [x]) ++ l by
      rw [List.append_assoc]; rfl] at hsorted ⊢
    exact htaken.fallsBack_of_close hsorted (Nat.zero_le _) hclose
  | superseded _ _ _ => cases ho

/-! ## Evaluating on top

If the failed run has come past a chain into a scope, its root holds what the
chain has come to. That is said with lines again: behind the lines before it,
its expressions, one to a line. They are evaluated in other worlds, and come to
the same if the host is steady. -/

/-- A run that nobody has interrupted completes also if nobody could. -/
theorem Completes.forget {l : List (Placed Step)} {p q : Progress}
    {w v : World σ} (h : Completes host calls token l p w q v) :
    Completes host calls none l p w q v := by
  obtain ⟨p', w', hreach, hclose⟩ := h
  exact ⟨p', w', hreach.forget, hclose⟩

/-- More lines, the first of which stands in no scope. -/
theorem Completes.append {before : List (Placed Step)} {p' : Progress}
    {w' : World σ} (hbefore : Completes host calls token before p w p' w')
    (hnil : p'.scopes = []) (hx : x.content.isBlank = false)
    (hzero : x.depth = 0) (h : Completes host calls token (x :: l) p' w' q v) :
    Completes host calls token (before ++ x :: l) p w q v := by
  obtain ⟨p₁, w₁, hreach₁, hclose₁⟩ := hbefore
  obtain ⟨p₂, w₂, hreach₂, hclose₂⟩ := h
  refine ⟨p₂, w₂, (hreach₁.append (x :: l)).trans ?_, hclose₂⟩
  cases hreach₂ with
  | blank hx' => exact absurd hx' (by simp [hx])
  | line _ ht hf hreach₂ =>
    -- Taking the line closes what is closed already, or closes it.
    refine .line hx ?_ hf hreach₂
    rw [exec_take, hzero] at ht ⊢
    rw [exec_closeTo_of_nil hnil] at ht
    rw [hclose₁]
    exact ht

end Drive

/-- The line of an expression in the place of another line. -/
def evalLine (o : Placed Step) (e : Expr) : Placed Step :=
  { o with content := .act (.eval e) }

namespace Drive

variable {start p q : Progress} {w u v : World σ} {done l : List (Placed Step)}
    {x : Placed Step}

/-- On the root alone, the line of an expression leaves there what that comes
to, in whatever world it is taken. -/
theorem exec_take_evalLine (hc : calls.Steady) (host : Host σ) (o : Placed Step)
    {e : Expr} {scope : Scope} {v' : World σ} {z : Value}
    (hrooted : p.machine.Rooted) (hnil : p.scopes = [])
    (hscope : p.arena.scopeOf 0 = .ok scope)
    (hz : (e.eval calls scope).exec v' = (.ok z, v)) (u : World σ) :
    ∃ q u₁, (Drive.take host calls (evalLine o e)).exec p u
      = (.ok false, q, u₁) ∧
      q.machine.Rooted ∧ q.scopes = [] ∧
      q.arena.scopeOf 0 = .ok (scope.retarget z) := by
  have hleaves : p.arena.leaves = [0] := by
    have hstacked := hrooted.stacked
    rw [show p.machine.scopes = [] from hnil] at hstacked
    exact hstacked.1
  -- The expression has the same value in the world of the line.
  obtain ⟨u₁, hu⟩ : ∃ u₁, (e.eval calls scope).exec (u.pause host)
      = (.ok z, u₁) := by
    have hsteady :=
      e.eval_related Act.steady_closed.ordinarily hc scope v' (u.pause host)
    rw [hz] at hsteady
    exact ⟨((e.eval calls scope).exec (u.pause host)).2,
      Prod.ext hsteady.symm rfl⟩
  have houtcomes : (p.arena.outcomes calls (.eval e)).exec (u.pause host)
      = (.ok [{ stream := z }], u₁) := by
    unfold Arena.outcomes
    rw [hleaves, List.mapM_cons]
    refine Act.exec_bind_eq_ok.2 ⟨{ stream := z }, u₁, ?_, rfl⟩
    exact Act.exec_bind_eq_ok.2 ⟨scope, _, congrArg (·, _) hscope,
      Act.exec_bind_eq_ok.2 ⟨z, u₁, hu, rfl⟩⟩
  have htake : (Drive.take host calls (evalLine o e)).exec p u = (.ok false,
      ⟨p.machine.after o.line (.eval e) [{ stream := z }], o.line⟩, u₁) := by
    rw [exec_take, exec_closeTo_of_nil hnil]
    show (step host calls (evalLine o e)).exec { p with lastLine := o.line } u
      = _
    rw [exec_step_act rfl]
    show (match (p.arena.outcomes calls (.eval e)).exec
        (u.pause host) with | _ => _) = _
    rw [houtcomes]
    rfl
  have harena : (p.machine.after o.line (.eval e) [{ stream := z }]).arena
      = p.arena.settle 0 { stream := z } := by
    show p.arena.commit (p.arena.leaves.zip _) = _
    rw [hleaves]
    rfl
  refine ⟨_, u₁, htake, (hrooted.after o.line (.eval e) [{ stream := z }]).1,
    hnil, ?_⟩
  rw [show Progress.arena _ = _ from harena]
  exact Arena.scopeOf_settle_root hscope z

/-- **Expressions evaluated line by line** on the root come to what the chain
of them comes to. A chain into a scope does several things at once and a
failing run may end behind the first of them. So that its output can be told,
the expressions of the chain are put on lines of their own, which take the
place of the line. -/
theorem completes_evalLine (hc : calls.Steady) (o : Placed Step)
    (es : List Expr) {scope : Scope} {v' : World σ} {y : Value}
    (hrooted : p.machine.Rooted) (hnil : p.scopes = [])
    (hscope : p.arena.scopeOf 0 = .ok scope)
    (hy : (evalChain calls scope es).exec v' = (.ok y, v)) (u : World σ) :
    ∃ q u', Completes host calls none (es.map (evalLine o)) p u q u' ∧
      q.arena.output = y := by
  induction es generalizing p scope u v' with
  | nil =>
    cases hy
    exact ⟨p, u, ⟨p, u, .here _ _ _, exec_closeTo_of_nil hnil 0 u⟩,
      Arena.output_eq_of_scopeOf hscope⟩
  | cons e es ih =>
    obtain ⟨z, v₁, hz, hrest⟩ := Act.exec_bind_eq_ok.1 hy
    obtain ⟨p₁, u₁, htake, hrooted₁, hnil₁, hscope₁⟩ :=
      exec_take_evalLine hc host o hrooted hnil hscope hz u
    obtain ⟨q, u', ⟨p', w', hreach, hclose⟩, hout⟩ :=
      ih hrooted₁ hnil₁ hscope₁ hrest (u₁.pause host)
    exact ⟨q, u', ⟨p', w', .line rfl htake rfl hreach, hclose⟩, hout⟩

end Drive

/-! ## Programs

For programs the worlds are left out: lines that come to a value in one world
come to it in all, as long as no other run begins (`Program.Yields`). -/

/-- **Lines that come to their end with a value**, in whatever world they are
run, unless another run begins meanwhile. The host is steady where this is
used, so a run in one world says what runs in all of them come to. -/
def Program.Yields (p : Program) (host : Host σ) (globals : Bindings Value)
    (lines : List (Placed Step)) (input v : Value) : Prop :=
  ∀ w, ((p.runLines host globals lines input).run w).2.generation
    = w.generation + 1 →
    ∃ r, ((p.runLines host globals lines input).run w).1 = some r ∧
      r.isComplete = true ∧
      r.output = v

/-- Whether a run of a program comes to have some lines to go. -/
def Program.ComesTo (p : Program) (host : Host σ) (globals : Bindings Value)
    (input : Value) (w : World σ) (rest : List (Placed Step)) : Prop :=
  ∃ q u, Drive.Reaches host (p.callables host globals)
    (some (w.generation + 1)) p.steps (.start input globals) w.begin rest q u

/-- Lines that complete in one world complete with the same value in all. -/
theorem Program.yields_of_completes (hh : host.Steady) (p : Program)
    {globals : Bindings Value} {l : List (Placed Step)} {input : Value}
    {w v : World σ} {q : Progress}
    (h : Drive.Completes host (p.callables host globals) none l
      (.start input globals) w q v) :
    p.Yields host globals l input q.arena.output := by
  intro w' hfresh
  rw [Program.run_runLines] at hfresh ⊢
  have hsteady := Drive.steady_lines (p.steady_callables hh globals) host l
    (.start input globals) (.start input globals) w w'.begin rfl
  rw [Drive.outcome, Drive.outcome, h.exec_eq,
    ← Drive.exec_lines_of_fresh hfresh] at hsteady
  rcases hexec :
    (Drive.lines host (p.callables host globals) (some (w'.generation + 1))
      l).exec (.start input globals) w'.begin with ⟨r, q', v'⟩
  rw [hexec] at hsteady
  obtain ⟨rfl, hmachine⟩ := Prod.mk.inj hsteady
  exact ⟨_, rfl, rfl,
    congrArg (fun m : Machine => m.arena.output) hmachine.symm⟩

/-- The lines of a script are numbered in their order, as a run sees them. -/
theorem Program.pairwise_steps {script : String} {p : Program}
    (hp : Program.ofScript script = .ok p) :
    p.steps.Pairwise fun x y => x.line < y.line :=
  List.pairwise_map.2 (pairwise_line_of_ofScript hp)

/-- The lines of a script are nested. -/
theorem Program.nested_steps {script : String} {p : Program}
    (hp : Program.ofScript script = .ok p) : Nested 0 p.steps := by
  obtain ⟨lines, -, rfl⟩ := Program.ofScript_eq_ok_iff.1 hp
  exact (laidOut_readItems {} lines).nested

/-- **The line in no scope that a failed run falls back to**, between those
before and those after it: of the lines in no scope it is the last that is not
behind the line the failure is put down to. The lines before it, run on their
own, come to their end, and the failed run hands back what they come to. But if
the line is a chain into a scope and the run has come past it, it hands back
what they and the chain come to, its expressions evaluated one after the
other. -/
structure Program.FallsBackTo (p : Program) (host : Host σ)
    (globals : Bindings Value) (input : Value) (w : World σ) (r : RunResult)
    (before : List (Placed Step)) (o : Placed Step)
    (after : List (Placed Step)) : Prop where
  steps_eq : p.steps = before ++ o :: after
  shown : o.content.isBlank = false
  outermost : o.depth = 0
  line_le : o.line ≤ r.lastLine
  last : ∀ y ∈ after, y.content.isBlank = false → y.depth = 0 →
    r.lastLine < y.line
  output : ∃ b, ((p.runLines host globals before input).run w).1 = some b ∧
    b.isComplete = true ∧ p.Yields host globals before input b.output ∧
    ((¬(p.ComesTo host globals input w after ∧
        ∃ head middle s, o.content = .act (.chain head middle (.scope s))) ∧
      r.output = b.output) ∨
    (p.ComesTo host globals input w after ∧
      ∃ head middle s, o.content = .act (.chain head middle (.scope s)) ∧
        p.Yields host globals (before ++ (head :: middle).map (evalLine o))
        input r.output))

/-- A run that hands back something incomplete has failed, and hands back what
was there. -/
theorem Program.exec_lines_of_incomplete {p : Program}
    {globals : Bindings Value} {input : Value} {w : World σ} {r : RunResult}
    (hr : ((p.run host globals input).run w).1 = some r)
    (hfail : r.isComplete = false) :
    ∃ e q u,
        (Drive.lines host (p.callables host globals) (some (w.generation + 1))
          p.steps).exec (.start input globals) w.begin = (.error e, q, u) ∧
      r.output = q.arena.output ∧ r.lastLine = q.lastLine := by
  unfold Program.run at hr
  rw [Program.run_runLines] at hr
  rcases hexec :
    (Drive.lines host (p.callables host globals) (some (w.generation + 1))
      p.steps).exec (.start input globals) w.begin with ⟨e | _ | _, q, u⟩ <;>
    rw [hexec] at hr <;> cases hr
  · exact ⟨e, q, u, rfl, rfl, rfl⟩
  · cases hfail

/-- **What a failed run hands back** is what the lines before some line in no
scope come to, the failed line or the one in whose scope the failure came
up. -/
theorem Program.output_of_incomplete {script : String} {p : Program}
    (hp : Program.ofScript script = .ok p) (hh : host.Steady)
    {globals : Bindings Value} {input : Value} {w : World σ} {r : RunResult}
    (hr : ((p.run host globals input).run w).1 = some r)
    (hfail : r.isComplete = false) :
    ∃ before o after, p.FallsBackTo host globals input w r before o after := by
  have hsteady := p.steady_callables hh globals
  obtain ⟨e, q, u, hexec, hoc, hline⟩ :=
    Program.exec_lines_of_incomplete hr hfail
  obtain ⟨before, o, after, hsplit, hshown, hzero, hle, hlater, q₀, v₀,
    hcomplete, hrooted, hnil, hcases⟩ :=
    Drive.fallsBack_of_error (Program.nested_steps hp)
      (Program.pairwise_steps hp) hexec
  have hbefore : ((p.runLines host globals before input).run w).1
      = some { output := q₀.arena.output, lastLine := q₀.lastLine } := by
    rw [Program.run_runLines, hcomplete.exec_eq]
    rfl
  refine ⟨before, o, after, hsplit, hshown, hzero, hline ▸ hle, hline ▸ hlater,
    _, hbefore, rfl, p.yields_of_completes hh hcomplete.forget, ?_⟩
  -- Only a chain into a scope has changed the root; the others have left it as
  -- it was.
  rw [hoc]
  obtain ⟨hnot, hout⟩ |
      ⟨hto, action, outcome, v', haction, hsome, houtcome, hout⟩ := hcases
  · exact .inl ⟨fun hboth => hnot hboth.1, hout⟩
  · obtain ⟨scope, w₁, hscope, hexecute⟩ := Act.exec_bind_eq_ok.1 houtcome
    obtain rfl : v₀.pause host = w₁ := congrArg Prod.snd hscope
    replace hscope : q₀.arena.scopeOf 0 = .ok scope := congrArg Prod.fst hscope
    obtain ⟨hne, hstream⟩ | ⟨head, middle, s, v₁, rfl, hchain⟩ :=
      Action.execute_of_opened hsome hexecute
    · refine .inl ⟨?_,
        hout.trans (hstream.trans (Arena.output_eq_of_scopeOf hscope).symm)⟩
      rintro ⟨-, head, middle, s, hcontent⟩
      rw [haction] at hcontent
      exact hne head middle s (Step.act.inj hcontent)
    · obtain ⟨q₁, u₁, htop, hq₁⟩ :=
        Drive.completes_evalLine hsteady o (head :: middle) hrooted hnil hscope
        hchain v₀
      have hall :=
        hcomplete.forget.append (x := evalLine o head) hnil rfl hzero htop
      refine .inr ⟨hto, head, middle, s, haction, ?_⟩
      rw [hout, ← hq₁]
      exact p.yields_of_completes hh hall

/-- A failure in a block: a filter cannot go through the second element of the
input. -/
theorem keepProgram_falls_back :
    let input : Value := .array [.array [.truth true], .text "a"]
    ∃ r before o after,
      ((keepProgram.run (Host.none Unit) [] input).run ⟨(), 0⟩).1 = some r ∧
      r.isComplete = false ∧ r.lastLine = 4 ∧
      keepProgram.FallsBackTo (Host.none Unit) [] input ⟨(), 0⟩ r before o
      after := by
  intro input
  have hrun : ((keepProgram.run (Host.none Unit) [] input).run ⟨(), 0⟩).1.map
      (fun r => (r.isComplete, r.lastLine)) = some (false, 4) := by
    cbv
  obtain ⟨r, hr, hfields⟩ := Option.map_eq_some_iff.1 hrun
  obtain ⟨hfail, hline⟩ := Prod.mk.inj hfields
  obtain ⟨before, o, after, h⟩ :=
    Program.output_of_incomplete ofScript_keepScript (Host.steady_none Unit)
      hr hfail
  exact ⟨r, before, o, after, hr, hfail, hline, h⟩

end StreamScript
