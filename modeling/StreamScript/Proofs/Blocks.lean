import StreamScript.Proofs.Fanout
import StreamScript.Proofs.PartialOutput

/-!
# Blocks in a list of lines

Where a block ends is not written anywhere in a list of lines. The scopes deeper
than the next line are closed before it is taken, and that is all. This module
finds the blocks again. `Drive.block` takes lines and closes what they have left
open; a list of lines that goes on at some depth is the block before it, closed
to that depth, and then the rest (`Drive.block_append`).

It also reads the single moves off as results: what a line does on leaves that
are ready, if it opens no scope (`Drive.step_result_of_plain`) and if it opens
one (`Drive.step_result_of_opened`).
-/

namespace StreamScript

variable {σ : Type} {host : Host σ} {calls : Callables σ} {w : World σ}

/-! ## Executing a line

The leaves of an arena that is ready are different branches without children,
and what a line does on one of them is not seen on another. So a line is
executed by finding an outcome for each leaf, and these may be found one by
one. The lemmas say so for `result`, which is what a drive comes to if the
world is left out of account. -/

/-- A line that opens no scope has no elements. -/
theorem Action.elements_eq_none {action : Action} {scope : Scope}
    {outcome : Outcome} {v : World σ} (hopened : action.opened? = none)
    (h : (action.execute calls scope).exec w = (.ok outcome, v)) :
    outcome.elements = none := by
  match action with
  | .exit =>
    cases h
    rfl
  | .eval _ | .store _ _ | .chain _ _ (.expr _) =>
    obtain ⟨x, w₁, _, h⟩ := Act.exec_bind_eq_ok.1 h
    cases h
    rfl
  | .scope _ | .storeScope _ _ | .chain _ _ (.scope _) => cases hopened

namespace Arena

variable {a : Arena} {n : Nat}

/-- What a line does on leaves that are ready is what it does on each. -/
theorem Ready.outcomes_value_iff (hready : a.Ready n) (hc : calls.Steady)
    {action : Action} {outcomes : List Outcome} :
    (a.outcomes calls action).value w = .ok outcomes ↔
      ∃ found : Nat → Outcome,
        (∀ i ∈ a.leaves,
          (action.execute calls ((a.spot i).scope (a.cell i))).value w
          = .ok (found i)) ∧ outcomes = a.leaves.map found := by
  unfold Arena.outcomes
  rw [Act.value_mapM_eq_ok_iff (a.steady_outcome hc action)]
  refine exists_congr fun found => and_congr_left fun _ =>
    forall₂_congr fun i hi => ?_
  unfold outcome
  rw [hready.scopeOf hi]
  exact Iff.rfl

/-- What a line has done on leaves that are ready, put into place. -/
theorem Ready.commit (hready : a.Ready n) (outcomes : Nat → Outcome) :
    (a.commit (a.leaves.map fun i => (i, outcomes i))).Downward ∧
      ∃ fields, Sown a (a.commit (a.leaves.map fun i => (i, outcomes i)))
        a.leaves outcomes fields := by
  refine ⟨(commit_root hready.downward _ fun y hy => ?_).1,
    exists_sown hready.nodup hready.lt_size outcomes⟩
  obtain ⟨i, hi, rfl⟩ := List.mem_map.1 hy
  exact hready.lt_size i hi

/-- **A line that has no elements** only changes what the leaves hold. -/
theorem commit_eq_hold (hready : a.Ready n) {outcomes : Nat → Outcome}
    (h : ∀ i ∈ a.leaves, (outcomes i).elements = none) :
    a.commit (a.leaves.map fun i => (i, outcomes i))
    = a.hold (a.after outcomes) := by
  obtain ⟨-, fields, hsown⟩ := hready.commit outcomes
  have hnone : ∀ i ∈ a.leaves, fields i = [] := fun i hi => by
    have hmap := hsown.sown i hi
    rw [h i hi] at hmap
    exact List.map_eq_nil_iff.1 hmap
  -- No element has been given a branch, so the arena has not grown.
  have hsize : (a.commit (a.leaves.map fun i => (i, outcomes i))).branches.size
      = a.branches.size := by
    have hnumbered := hsown.numbered
    rw [List.flatMap_eq_nil_iff.2 hnone] at hnumbered
    have hzero := congrArg List.length hnumbered
    rw [List.length_range', List.length_nil] at hzero
    have hle := hsown.size_le
    omega
  refine ext_getElem? (fun j => ?_) hsown.leaves_eq
  rw [getElem?_hold]
  split
  · next hj =>
    rw [hsown.getElem?_leaf hready hj, hnone j hj]
    obtain ⟨x, hx⟩ := hready.exists_branch hj
    have hchildren := hready.childless j hj
    unfold childrenOf at hchildren
    rw [hx] at hchildren ⊢
    change x.children = [] at hchildren
    obtain ⟨_, _, _, _, _, _⟩ := x
    obtain rfl := hchildren
    rfl
  · next hj =>
    by_cases hlt : j < a.branches.size
    · exact hsown.kept j hlt hj
    · rw [Array.getElem?_eq_none (by omega), Array.getElem?_eq_none (by omega)]

end Arena

/-- A list beside what is made of its elements. -/
theorem zip_map_self {α β : Type} (l : List α) (f : α → β) :
    l.zip (l.map f) = l.map fun a => (a, f a) := by
  have h := List.zip_map' (f := id) (g := f) (l := l)
  rwa [List.map_id] at h

namespace Machine

variable {m : Machine} {n : Nat} {action : Action} {outcomes : Nat → Outcome}

/-- The machine after a line that opens no scope. -/
theorem after_of_not_opened (hready : m.arena.Ready n) (line : Nat)
    (hopened : action.opened? = none)
    (h : ∀ i ∈ m.arena.leaves, (outcomes i).elements = none) :
    m.after line action (m.arena.leaves.map outcomes)
    = m.hold (m.arena.after outcomes) := by
  unfold after hold
  rw [hopened, zip_map_self, Arena.commit_eq_hold hready h]

/-- The machine after a line that opens one. -/
theorem after_of_opened (m : Machine) (line : Nat) {form : ScopeForm}
    {target : Option String} (hopened : action.opened? = some (form, target)) :
    m.after line action (m.arena.leaves.map outcomes) =
      { arena :=
          (m.arena.commit (m.arena.leaves.map fun i => (i, outcomes i))).descend
            m.arena.branches.size
        scopes :=
          { line, form, target, parents := m.arena.leaves,
            mark := m.arena.branches.size }
          :: m.scopes } := by
  unfold after
  rw [hopened, zip_map_self]

end Machine

namespace Drive

variable {m m' : Machine} {n : Nat} {x : Placed Step} {action : Action}

/-- Executing a line is finding out what it does on the leaves, and putting
that into place. -/
theorem step_result_act (hc : calls.Steady) (hx : x.content = .act action)
    {exits : Bool} :
    (step host calls x).result w m = .ok (exits, m') ↔
      ∃ outcomes, (m.arena.outcomes calls action).value w = .ok outcomes ∧
        exits = outcomes.any Outcome.exits ∧
        m' = m.after x.line action outcomes := by
  have hsteady : (m.arena.outcomes calls action).Steady :=
    m.arena.outcomes_related Act.steady_closed hc action
  -- A line is executed after a pause, which may change the world but not the
  -- result.
  unfold Act.value
  rw [result_eq_ok_iff, hsteady w (w.pause host)]
  simp only [exec_step_act hx, Progress.arena]
  obtain ⟨_ | outcomes, w₁⟩ :=
    (m.arena.outcomes calls action).exec (w.pause host)
  · exact iff_of_false (by rintro ⟨_, _, h⟩; cases h)
      (by rintro ⟨_, h, _⟩; cases h)
  · constructor
    · rintro ⟨line, w', ⟨⟩⟩
      exact ⟨outcomes, rfl, rfl, rfl⟩
    · rintro ⟨_, ⟨⟩, rfl, rfl⟩
      exact ⟨0, w₁, rfl⟩

/-- **What a line does on leaves that are ready**, each for itself. -/
theorem step_result (hc : calls.Steady) (hready : m.arena.Ready n)
    (hx : x.content = .act action) {exits : Bool} :
    (step host calls x).result w m = .ok (exits, m') ↔
      ∃ outcomes : Nat → Outcome,
        (∀ i ∈ m.arena.leaves, (action.execute calls
          ((m.arena.spot i).scope (m.arena.cell i))).value w = .ok (outcomes i))
          ∧
        exits = (m.arena.leaves.map outcomes).any Outcome.exits ∧
        m' = m.after x.line action (m.arena.leaves.map outcomes) := by
  rw [step_result_act hc hx]
  simp only [hready.outcomes_value_iff hc]
  constructor
  · rintro ⟨_, ⟨outcomes, hexecuted, rfl⟩, hrest⟩
    exact ⟨outcomes, hexecuted, hrest⟩
  · rintro ⟨outcomes, hexecuted, hrest⟩
    exact ⟨_, ⟨outcomes, hexecuted, rfl⟩, hrest⟩

/-- **A line that opens no scope** only changes what the leaves hold. -/
theorem step_result_of_plain (hc : calls.Steady) (hready : m.arena.Ready n)
    (hx : x.content = .act action) (hopened : action.opened? = none)
    {exits : Bool} :
    (step host calls x).result w m = .ok (exits, m') ↔
      ∃ outcomes : Nat → Outcome,
        (∀ i ∈ m.arena.leaves, (action.execute calls
          ((m.arena.spot i).scope (m.arena.cell i))).value w = .ok (outcomes i))
          ∧
        exits = (m.arena.leaves.map outcomes).any Outcome.exits ∧
        m' = m.hold (m.arena.after outcomes) := by
  rw [step_result hc hready hx]
  refine exists_congr fun outcomes => and_congr_right fun hexecuted =>
    and_congr_right fun _ => ?_
  have hnone : ∀ i ∈ m.arena.leaves,
      (outcomes i).elements = none := fun i hi => by
    obtain ⟨v, hv⟩ := Act.exec_of_value (hexecuted i hi)
    exact Action.elements_eq_none hopened hv
  rw [Machine.after_of_not_opened hready x.line hopened hnone]

/-- A line that is no exit does not end the run, read off what it does on each
leaf. This is a fact about actions, so it does not matter how many leaves there
are. -/
theorem any_exits_map_eq_false {outcomes : Nat → Outcome} {leaves : List Nat}
    {scopes : Nat → Scope} (hexit : action ≠ .exit)
    (h : ∀ i ∈ leaves, (action.execute calls (scopes i)).value w
      = .ok (outcomes i)) :
    (leaves.map outcomes).any Outcome.exits = false := by
  rw [List.any_map]
  refine List.any_eq_false.2 fun i hi => ?_
  obtain ⟨v, hv⟩ := Act.exec_of_value (h i hi)
  show ¬(outcomes i).exits = true
  rw [Action.exits_eq_false hexit hv]
  exact Bool.false_ne_true

/-- If it is not an exit, it is executed on each leaf. This is the form in
which a line meets the meaning of a script for one element: both sides are
something done on each leaf alone. -/
theorem step_result_eq_each (hc : calls.Steady) (hready : m.arena.Ready n)
    (hx : x.content = .act action) (hopened : action.opened? = none)
    (hexit : action ≠ .exit) {exits : Bool} :
    (step host calls x).result w m = .ok (exits, m') ↔
      exits = false ∧ Each (fun spot c => do
        let outcome ← action.execute calls (spot.scope c)
        return c.settle outcome) w m m' := by
  have hsettle : ∀ c : Cell, ∀ outcome,
      (pure (c.settle outcome) : Act σ Cell).Steady :=
    fun c outcome => Act.steady_closed.pure _
  rw [step_result_of_plain hc hready hx hopened]
  constructor
  · rintro ⟨outcomes, hexecuted, rfl, rfl⟩
    refine ⟨?_, m.arena.after outcomes, fun i hi => ?_, rfl⟩
    · exact any_exits_map_eq_false hexit hexecuted
    · exact (Act.value_bind_eq_ok_iff (hsettle _)).2
        ⟨outcomes i, hexecuted i hi, rfl⟩
  · rintro ⟨rfl, g, hg, rfl⟩
    have hsplit :=
      fun i hi => (Act.value_bind_eq_ok_iff (hsettle _)).1 (hg i hi)
    choose! outcomes hexecuted hset using hsplit
    refine ⟨outcomes, hexecuted, ?_, ?_⟩
    · exact (any_exits_map_eq_false hexit hexecuted).symm
    · exact (Machine.hold_congr fun i hi => Except.ok.inj (hset i hi)).symm

/-! ## Closing as far as a depth

To close as far as a depth is to close so many scopes. What is closed first
does not depend on how far the closing goes in the end; it may stop on the way,
and begin again from there. -/

variable {d e : Nat}

/-- The number of scopes to close, written out. -/
theorem closeTo_result (d : Nat) (m : Machine) (w : World σ) :
    (closeTo host calls d).result w m
      = (closeScopes host calls (m.scopes.length - d)).result w m := rfl

/-- Where no scope is deeper there is nothing to close. -/
theorem closeTo_result_of_le (h : m.scopes.length ≤ d) (w : World σ) :
    (closeTo host calls d).result w m = .ok ((), m) := by
  rw [closeTo_result, Nat.sub_eq_zero_of_le h]
  rfl

/-- Where one is deeper, that one is closed. -/
theorem closeTo_result_of_eq_succ (h : m.scopes.length = d + 1) :
    (closeTo host calls d).result w m = .ok ((), m') ↔
      (closeScope host calls).result w m = .ok ((), m') := by
  rw [closeTo_result, h, Nat.add_sub_cancel_left]
  show (closeScope host calls >>= fun _ => pure ()).result w m = _ ↔ _
  rw [result_bind_eq_ok_iff fun _ => steady_closed.pure ()]
  constructor
  · rintro ⟨_, _, hclose, ⟨⟩⟩
    exact hclose
  · exact fun hclose => ⟨(), m', hclose, rfl⟩

/-- Some scopes and then some more are closed by closing so many. -/
theorem closeScopes_result_add (hc : calls.Steady) (k l : Nat) :
    (closeScopes host calls (k + l)).result w m = .ok ((), m') ↔
      ∃ m₁, (closeScopes host calls k).result w m = .ok ((), m₁) ∧
        (closeScopes host calls l).result w m₁ = .ok ((), m') := by
  have hsteady :=
    fun k => closeScopes_closed Act.steady_closed steady_closed hc host k
  induction k generalizing m with
  | zero =>
    rw [Nat.zero_add]
    exact ⟨fun h => ⟨m, rfl, h⟩, by rintro ⟨_, ⟨⟩, h⟩; exact h⟩
  | succ k ih =>
    rw [Nat.add_right_comm]
    show (closeScope host calls >>= fun _ =>
      closeScopes host calls (k + l)).result w m = _ ↔
      ∃ m₁, (closeScope host calls >>= fun _ => closeScopes host calls k).result
        w m = _ ∧ _
    simp only [result_bind_eq_ok_iff fun _ => hsteady _]
    constructor
    · rintro ⟨_, m₁, hfirst, hrest⟩
      obtain ⟨m₂, hk, hl⟩ := ih.1 hrest
      exact ⟨m₂, ⟨(), m₁, hfirst, hk⟩, hl⟩
    · rintro ⟨m₂, ⟨_, m₁, hfirst, hk⟩, hl⟩
      exact ⟨(), m₁, hfirst, ih.2 ⟨m₂, hk, hl⟩⟩

/-- The scopes that are left. -/
theorem closeTo_result_scopes
    (h : (closeTo host calls d).result w m = .ok ((), m')) :
    m'.scopes = m.scopes.drop (m.scopes.length - d) := by
  obtain ⟨line, w', hexec⟩ := result_eq_ok_iff.1 h
  exact exec_closeTo_scopes hexec

/-- **Closing as far as a depth may stop on the way.** So it makes no
difference when the deeper scopes are closed, if nothing happens in between. -/
theorem closeTo_result_trans (hc : calls.Steady) (hde : d ≤ e) :
    (closeTo host calls d).result w m = .ok ((), m') ↔
      ∃ m₁, (closeTo host calls e).result w m = .ok ((), m₁) ∧
        (closeTo host calls d).result w m₁ = .ok ((), m') := by
  -- So many scopes are closed on the way, and the others afterwards.
  have hsplit : m.scopes.length - d
      = (m.scopes.length - e)
      + (m.scopes.length - (m.scopes.length - e) - d) := by omega
  rw [closeTo_result, hsplit, closeScopes_result_add hc]
  refine exists_congr fun m₁ => and_congr_right fun h => ?_
  rw [closeTo_result d m₁, closeTo_result_scopes h, List.length_drop]

/-! ## Taking lines

A block is run by taking its lines and closing what they have left open. Both
are asked only whether they succeed and with which machine, for a run that
succeeds has neither exit nor a newer run in it to look at. -/

/-- **Taking a line** is closing what it does not stand in, and executing it. -/
theorem take_result (hc : calls.Steady) (x : Placed Step) {exits : Bool} :
    (take host calls x).result w m = .ok (exits, m') ↔
      ∃ m₁, (closeTo host calls x.depth).result w m = .ok ((), m₁) ∧
        (step host calls x).result w m₁ = .ok (exits, m') := by
  have hstep :=
    step_closed Act.steady_closed steady_closed hc host (steady_admits x)
  have harrive :=
    steady_closed.bind (steady_closed.arrive x.line) fun _ => hstep
  rw [take_eq, result_bind_eq_ok_iff fun _ => harrive]
  simp only [result_bind_eq_ok_iff fun _ => hstep, result_arrive]
  constructor
  · rintro ⟨_, m₁, hclose, _, _, ⟨⟩, h⟩
    exact ⟨m₁, hclose, h⟩
  · rintro ⟨m₁, hclose, h⟩
    exact ⟨(), m₁, hclose, (), m₁, rfl, h⟩

/-- **Takes lines**, one after the other, and leaves their scopes open. -/
def through (host : Host σ) (calls : Callables σ) : List (Placed Step) →
    Drive σ Unit
  | [] => return ()
  | x :: rest =>
    if x.content.isBlank then through host calls rest
    else do
      let _ ← take host calls x
      through host calls rest

/-- **Takes the lines of a block** and closes what they have left open. -/
def block (host : Host σ) (calls : Callables σ) (depth : Nat)
    (l : List (Placed Step)) :
    Drive σ Unit := do
  through host calls l
  closeTo host calls depth

/-- To take lines is steady if the calls are: no answer of the host changes
what they come to. The lines may stop at an error, and which it is does not
depend on the host either. -/
theorem steady_through (hc : calls.Steady) (host : Host σ)
    (l : List (Placed Step)) :
    (through host calls l).Steady := by
  induction l with
  | nil => exact steady_closed.pure ()
  | cons x rest ih =>
    unfold through
    split
    · exact ih
    · have htake :=
        take_closed Act.steady_closed steady_closed hc host (steady_admits x)
      exact steady_closed.bind htake fun _ => ih

/-- An empty line among them is passed over. -/
theorem through_blank (hx : x.content.isBlank = true)
    (rest : List (Placed Step)) :
    through host calls (x :: rest) = through host calls rest := by
  rw [through, if_pos hx]

/-- Any other line is taken, and its exit is of no matter, since nothing is
said of it here. -/
theorem through_result_cons (hc : calls.Steady) (hx : x.content.isBlank = false)
    (rest : List (Placed Step)) :
    (through host calls (x :: rest)).result w m = .ok ((), m') ↔
      ∃ exits m₁, (take host calls x).result w m = .ok (exits, m₁) ∧
        (through host calls rest).result w m₁ = .ok ((), m') := by
  rw [through, if_neg (by simp [hx]),
    result_bind_eq_ok_iff fun _ => steady_through hc host rest]

/-- Lines behind one another are taken one after the other. -/
theorem through_result_append (hc : calls.Steady) (l l' : List (Placed Step)) :
    (through host calls (l ++ l')).result w m = .ok ((), m') ↔
      ∃ m₁, (through host calls l).result w m = .ok ((), m₁) ∧
        (through host calls l').result w m₁ = .ok ((), m') := by
  induction l generalizing m with
  | nil => exact ⟨fun h => ⟨m, rfl, h⟩, by rintro ⟨_, ⟨⟩, h⟩; exact h⟩
  | cons x l ih =>
    cases hx : x.content.isBlank with
    | true => simp only [List.cons_append, through_blank hx, ih]
    | false =>
      rw [List.cons_append]
      simp only [through_result_cons hc hx, ih]
      constructor
      · rintro ⟨exits, m₁, hx, m₂, hl, hl'⟩
        exact ⟨m₂, ⟨exits, m₁, hx, hl⟩, hl'⟩
      · rintro ⟨m₂, ⟨exits, m₁, hx, hl⟩, hl'⟩
        exact ⟨exits, m₁, hx, m₂, hl, hl'⟩

/-- A block comes to a machine if its lines do and if what they have left open
can be closed. -/
theorem block_result (hc : calls.Steady) (depth : Nat)
    (l : List (Placed Step)) :
    (block host calls depth l).result w m = .ok ((), m') ↔
      ∃ m₁, (through host calls l).result w m = .ok ((), m₁) ∧
        (closeTo host calls depth).result w m₁ = .ok ((), m') := by
  unfold block
  rw [result_bind_eq_ok_iff fun _ => closeTo_closed Act.steady_closed
    steady_closed hc host depth]
  exact ⟨fun ⟨_, m₁, h⟩ => ⟨m₁, h⟩, fun ⟨m₁, h⟩ => ⟨(), m₁, h⟩⟩

/-- With no line there is only what is open already to be closed. -/
theorem block_result_nil (depth : Nat) (m : Machine) (w : World σ) :
    (block host calls depth []).result w m
      = (closeTo host calls depth).result w m := rfl

/-- An empty line is passed over. -/
theorem block_blank (hx : x.content.isBlank = true) (depth : Nat)
    (rest : List (Placed Step)) :
    block host calls depth (x :: rest) = block host calls depth rest := by
  unfold block
  rw [through_blank hx]

/-- A line with nothing deeper to close is executed, and then the rest. In
front of the first line of a block there is nothing to be closed, so taking the
line is executing it. -/
theorem block_result_cons (hc : calls.Steady) (hx : x.content.isBlank = false)
    (hle : m.scopes.length ≤ x.depth) (depth : Nat)
    (rest : List (Placed Step)) :
    (block host calls depth (x :: rest)).result w m = .ok ((), m') ↔
      ∃ exits m₁, (step host calls x).result w m = .ok (exits, m₁) ∧
        (block host calls depth rest).result w m₁ = .ok ((), m') := by
  simp only [block_result hc, through_result_cons hc hx, take_result hc,
    closeTo_result_of_le hle]
  constructor
  · rintro ⟨m₁, ⟨exits, m₂, ⟨_, ⟨⟩, hstep⟩, hrest⟩, hclose⟩
    exact ⟨exits, m₂, hstep, m₁, hrest, hclose⟩
  · rintro ⟨exits, m₂, hstep, m₁, hrest, hclose⟩
    exact ⟨m₁, ⟨exits, m₂, ⟨m, rfl, hstep⟩, hrest⟩, hclose⟩

/-- **Lines that begin at some depth** may find everything closed that is
deeper. -/
theorem through_result_closed (hc : calls.Steady)
    (hx : x.content.isBlank = false) (hd : x.depth ≤ d)
    (rest : List (Placed Step)) :
    (through host calls (x :: rest)).result w m = .ok ((), m') ↔
      ∃ m₁, (closeTo host calls d).result w m = .ok ((), m₁) ∧
        (through host calls (x :: rest)).result w m₁ = .ok ((), m') := by
  simp only [through_result_cons hc hx, take_result hc]
  constructor
  · rintro ⟨exits, m₁, ⟨m₂, hclose, hstep⟩, hrest⟩
    obtain ⟨m₃, hfirst, hclose⟩ := (closeTo_result_trans hc hd).1 hclose
    exact ⟨m₃, hfirst, exits, m₁, ⟨m₂, hclose, hstep⟩, hrest⟩
  · rintro ⟨m₃, hfirst, exits, m₁, ⟨m₂, hclose, hstep⟩, hrest⟩
    exact ⟨exits, m₁,
      ⟨m₂, (closeTo_result_trans hc hd).2 ⟨m₃, hfirst, hclose⟩, hstep⟩, hrest⟩

/-- **A block and what comes behind it**: the lines of the block, the scope
that they stand in, and the rest. What comes behind begins at the depth of the
scope or above, so its first line would close the scope anyway; the lemma only
moves that closing to where it belongs. -/
theorem block_append (hc : calls.Steady) (l : List (Placed Step))
    {l' : List (Placed Step)}
    (h : ∀ x ∈ l'.head?, x.content.isBlank = false ∧ x.depth ≤ d) :
    (block host calls d (l ++ l')).result w m = .ok ((), m') ↔
      ∃ m₁ m₂, (block host calls (d + 1) l).result w m = .ok ((), m₁) ∧
        (closeTo host calls d).result w m₁ = .ok ((), m₂) ∧
        (block host calls d l').result w m₂ = .ok ((), m') := by
  simp only [block_result hc, through_result_append hc]
  -- What comes behind the block begins with closing it, or there is nothing
  -- behind it.
  have hbehind : ∀ m, (∃ m₁, (through host calls l').result w m = .ok ((), m₁) ∧
      (closeTo host calls d).result w m₁ = .ok ((), m')) ↔
      ∃ m₂, (closeTo host calls d).result w m = .ok ((), m₂) ∧
        ∃ m₁, (through host calls l').result w m₂ = .ok ((), m₁) ∧
          (closeTo host calls d).result w m₁ = .ok ((), m') := by
    intro m
    cases l' with
    | nil =>
      constructor
      · rintro ⟨_, ⟨⟩, hclose⟩
        obtain ⟨m₂, hfirst, hrest⟩ :=
          (closeTo_result_trans hc (Nat.le_refl d)).1 hclose
        exact ⟨m₂, hfirst, m₂, rfl, hrest⟩
      · rintro ⟨m₂, hfirst, _, ⟨⟩, hrest⟩
        exact ⟨m, rfl,
          (closeTo_result_trans hc (Nat.le_refl d)).2 ⟨m₂, hfirst, hrest⟩⟩
    | cons x rest =>
      obtain ⟨hx, hd⟩ := h x rfl
      constructor
      · rintro ⟨m₁, hrest, hclose⟩
        obtain ⟨m₂, hfirst, hrest⟩ :=
          (through_result_closed hc hx hd rest).1 hrest
        exact ⟨m₂, hfirst, m₁, hrest, hclose⟩
      · rintro ⟨m₂, hfirst, m₁, hrest, hclose⟩
        exact ⟨m₁, (through_result_closed hc hx hd rest).2 ⟨m₂, hfirst, hrest⟩,
          hclose⟩
  constructor
  · rintro ⟨m₁, ⟨m₂, hl, hl'⟩, hclose⟩
    obtain ⟨m₃, hfirst, hrest⟩ := (hbehind m₂).1 ⟨m₁, hl', hclose⟩
    obtain ⟨m₄, hinner, houter⟩ :=
      (closeTo_result_trans hc (Nat.le_succ d)).1 hfirst
    exact ⟨m₄, m₃, ⟨m₂, hl, hinner⟩, houter, hrest⟩
  · rintro ⟨m₄, m₃, ⟨m₂, hl, hinner⟩, houter, hrest⟩
    have hfirst :=
      (closeTo_result_trans hc (Nat.le_succ d)).2 ⟨m₄, hinner, houter⟩
    obtain ⟨m₁, hl', hclose⟩ := (hbehind m₂).2 ⟨m₃, hfirst, hrest⟩
    exact ⟨m₁, ⟨m₂, hl, hl'⟩, hclose⟩

end Drive

end StreamScript
