import Mathlib
import StreamScript.Proofs.Indentation
import StreamScript.Proofs.Leaves
import StreamScript.Proofs.Moves
import StreamScript.Proofs.Steady

/-!
# Branches that finish in any order

A line is executed on every leaf by a task of its own. `Drive.step` runs the
tasks from left to right, but nothing in a script may count on that: tasks wait
for the host, and while one waits the others go on. What the order can be seen
in is said here by a step of its own, `Machine.stepIn`. It is given the tasks
in the order in which they finish, each with the world that it has met, and
these worlds are any whatever, so that they can hold all that the other tasks
have done to the host. What they do to it while a task waits is a matter of how
the state of the host changes from one request to the next, and of that nothing
is assumed. Each outcome is put into the slot of its leaf when it arrives, and
the first failure ends the step. What is in the slots is then put into place,
leaf by leaf, and so the branches of the elements are numbered in the order of
the leaves.

`Program.step_in_any_order` compares the two. With a steady host a task has the
same outcome in every world, so it matters neither which world a task meets nor
when it finishes: if the step succeeds it leaves the same machine in every
order, and if it fails it fails in every order, and leaves the machine as it
was. Only which of several errors is seen depends on the order.

One step is all that is spoken of here, and the calls of functions that its
tasks make are those of a run from left to right. Whole runs, in which the lines
of every function that is called have orders of their own, are the matter of
`Program.run_in_any_order`.
-/

namespace StreamScript

variable {σ : Type} {host : Host σ} {calls : Callables σ}

/-! ## Tasks

A task is known by the place of its leaf, and it is the place that says where
its outcome belongs. What the task has met is a world of its own, so that
nothing needs to be said about how tasks share the host. The order is a list in
which every place comes once. -/

/-- **A task that has finished**: the place of its leaf among the leaves, and
the world that the task has met. -/
structure Arrival (σ : Type) where
  slot : Nat
  world : World σ

namespace Arena

/-- What has come of a task. -/
def task (a : Arena) (calls : Callables σ) (action : Action) (x : Arrival σ) :
    Except RunError Outcome :=
  match a.leaves[x.slot]? with
  | some leaf => (a.outcome calls action leaf).value x.world
  | none => .error (.task ("no leaf " ++ toString x.slot))

/-- **The outcomes in the slots of their leaves**, put there as they arrive.
The first task that has failed ends it; those that are still under way are
given up. -/
def fill (a : Arena) (calls : Callables σ) (action : Action) :
    List (Option Outcome) → List (Arrival σ) →
      Except RunError (List (Option Outcome))
  | slots, [] => .ok slots
  | slots, x :: order =>
    match a.task calls action x with
    | .ok outcome => a.fill calls action (slots.set x.slot (some outcome)) order
    | .error e => .error e

/-- The leaves whose outcomes are there, in their order. -/
def arrived (a : Arena) (slots : List (Option Outcome)) :
    List (Nat × Outcome) :=
  (a.leaves.zip slots).filterMap fun (leaf, outcome) => outcome.map fun o =>
    (leaf, o)

/-- **An order in which all tasks finish**: every leaf is in it once. -/
def Finishes (a : Arena) (order : List (Arrival σ)) : Prop :=
  (order.map Arrival.slot).Perm (List.range a.leaves.length)

end Arena

namespace Machine

/-- The machine after a line, from the leaves with their outcomes. -/
def settleAll (m : Machine) (line : Nat) (action : Action)
    (settled : List (Nat × Outcome)) :
    Machine :=
  let arena := m.arena.commit settled
  match action.opened? with
  | none => { m with arena }
  | some (form, target) =>
    let mark := m.arena.branches.size
    let s : OpenScope := { line, form, target, parents := m.arena.leaves, mark }
    { arena := arena.descend mark, scopes := s :: m.scopes }

/-- **Executes a line** on all leaves at once, in the order in which their
tasks finish. -/
def stepIn (m : Machine) (calls : Callables σ) (x : Placed Step)
    (order : List (Arrival σ)) :
    Except RunError Bool × Machine :=
  match x.content with
  | .blank => (.ok false, m)
  | .invalid e => (.error (.invalid e), m)
  | .act action =>
    match m.arena.fill calls action (m.arena.leaves.map fun _ => none)
        order with
    | .error e => (.error e, m)
    | .ok slots =>
      let settled := m.arena.arrived slots
      (.ok (settled.any fun found => found.2.exits),
        m.settleAll x.line action settled)

end Machine

/-! ## Slots

The slots are filled as tasks arrive. When all of them have arrived there is
one outcome for each leaf, and the order in which they came is not in the slots
any more. -/

namespace Arena

variable {a : Arena} {action : Action} {order : List (Arrival σ)}

/-- **Tasks that succeed fill their slots**, and no others. -/
theorem fill_eq_ok {found : Nat → Outcome} (slots : List (Option Outcome))
    (h : ∀ x ∈ order, a.task calls action x = .ok (found x.slot)) :
    ∃ filled, a.fill calls action slots order = .ok filled ∧
      filled.length = slots.length ∧
      ∀ i < slots.length, filled[i]? =
        if i ∈ order.map Arrival.slot then some (some (found i))
        else slots[i]? := by
  induction order generalizing slots with
  | nil => exact ⟨slots, rfl, rfl, fun i _ => rfl⟩
  | cons x order ih =>
    obtain ⟨hx, horder⟩ := List.forall_mem_cons.1 h
    obtain ⟨filled, hfill, hlength, hget⟩ :=
      ih (slots.set x.slot (some (found x.slot))) horder
    rw [List.length_set] at hlength hget
    refine ⟨filled, ?_, hlength, fun i hi => ?_⟩
    · rw [fill, hx]
      exact hfill
    · rw [hget i hi, List.map_cons]
      by_cases hmem : i ∈ order.map Arrival.slot
      · rw [if_pos hmem, if_pos (List.mem_cons_of_mem _ hmem)]
      · by_cases hix : i = x.slot
        · subst hix
          rw [if_neg hmem, if_pos List.mem_cons_self, List.getElem?_set_self hi]
        · rw [if_neg hmem, if_neg (by simp [hix, hmem]),
            List.getElem?_set_ne (Ne.symm hix)]

/-- **A task that fails ends it**, whatever has arrived before. -/
theorem exists_fill_eq_error {x : Arrival σ} {e : RunError}
    (slots : List (Option Outcome)) (hx : x ∈ order)
    (h : a.task calls action x = .error e) :
    ∃ e', a.fill calls action slots order = .error e' := by
  induction order generalizing slots with
  | nil => cases hx
  | cons y order ih =>
    rw [fill]
    cases hy : a.task calls action y with
    | error e' => exact ⟨e', rfl⟩
    | ok outcome =>
      -- A task that succeeds is not the one that fails, so that is still to
      -- come.
      obtain rfl | hx := List.mem_cons.1 hx
      · rw [h] at hy
        cases hy
      · exact ih _ hx

/-- Slots that are all filled give the leaves with their outcomes. -/
theorem arrived_map_some (a : Arena) (outcomes : List Outcome) :
    a.arrived (outcomes.map some) = a.leaves.zip outcomes := by
  rw [arrived, List.zip_map_right, List.filterMap_map]
  exact List.filterMap_some

/-! ## Tasks of a steady host

With a steady host the outcome of a task is the same in every world, so it may
be read in the world of the step that is compared. -/

/-- What comes of the task of a leaf is what the line does on it, whatever
world it meets. -/
theorem task_eq (hc : calls.Steady) {x : Arrival σ} {leaf : Nat}
    (hleaf : a.leaves[x.slot]? = some leaf) (w : World σ) :
    a.task calls action x = (a.outcome calls action leaf).value w := by
  rw [task, hleaf]
  exact a.steady_outcome hc action leaf x.world w

/-- A line that fails on the leaves fails on one of them. -/
theorem exists_outcome_eq_error (hc : calls.Steady) {e : RunError} {w : World σ}
    (h : (a.outcomes calls action).value w = .error e) :
    ∃ leaf ∈ a.leaves, ∃ e', (a.outcome calls action leaf).value w
      = .error e' := by
  by_contra hnone
  have hall : ∀ leaf ∈ a.leaves, ∃ o, (a.outcome calls action leaf).value w
      = .ok o := by
    intro leaf hleaf
    cases ho : (a.outcome calls action leaf).value w with
    | error e' => exact absurd ⟨leaf, hleaf, e', ho⟩ hnone
    | ok o => exact ⟨o, rfl⟩
  choose! found hfound using hall
  have hok := (Act.value_mapM_eq_ok_iff (a.steady_outcome hc action)).2
    ⟨found, hfound, rfl⟩
  unfold outcomes at h
  rw [h] at hok
  cases hok

end Arena

/-! ## Any order

Either all tasks succeed, and then the slots are filled with the outcomes from
left to right; or one of them fails, and then it fails in every order in which
it comes, at the latest when it arrives. -/

section Order

variable {m : Machine} {x : Placed Step} {action : Action}
  {order : List (Arrival σ)} {w : World σ}

/-- **If the line succeeds on all leaves**, every order leaves what it has done
on them. -/
theorem Machine.stepIn_eq_ok (hc : calls.Steady) (hx : x.content = .act action)
    {outcomes : List Outcome}
    (h : (m.arena.outcomes calls action).value w = .ok outcomes)
    (horder : m.arena.Finishes order) :
    m.stepIn calls x order
      = (.ok (outcomes.any Outcome.exits), m.after x.line action outcomes) := by
  obtain ⟨found, hfound, rfl⟩ :=
    (Act.value_mapM_eq_ok_iff (m.arena.steady_outcome hc action)).1 h
  let outcomeAt : Nat → Outcome := fun i => found (m.arena.leaves[i]?.getD 0)
  have htasks : ∀ y ∈ order,
      m.arena.task calls action y = .ok (outcomeAt y.slot) := by
    intro y hy
    have hlt : y.slot < m.arena.leaves.length :=
      List.mem_range.1 (horder.mem_iff.1 (List.mem_map_of_mem hy))
    have hleaf := List.getElem?_eq_getElem hlt
    rw [Arena.task_eq hc hleaf w, hfound _ (List.getElem_mem hlt)]
    exact congrArg (fun leaf => Except.ok (found leaf)) (by rw [hleaf]; rfl)
  obtain ⟨filled, hfill, hlength, hget⟩ :=
    Arena.fill_eq_ok (m.arena.leaves.map fun _ => none) htasks
  rw [List.length_map] at hlength hget
  -- Every leaf is in the order, so no slot has stayed empty.
  have hfilled : filled = (m.arena.leaves.map found).map some := by
    refine List.ext_getElem? fun i => ?_
    by_cases hi : i < m.arena.leaves.length
    · rw [hget i hi, if_pos (horder.mem_iff.2 (List.mem_range.2 hi)),
        List.getElem?_map, List.getElem?_map, List.getElem?_eq_getElem hi]
      show some (some (found (m.arena.leaves[i]?.getD 0))) = _
      rw [List.getElem?_eq_getElem hi]
      rfl
    · rw [List.getElem?_eq_none (by omega),
        List.getElem?_eq_none (by simpa using hi)]
  rw [Machine.stepIn, hx]
  dsimp only
  rw [hfill, hfilled]
  dsimp only
  rw [Arena.arrived_map_some]
  refine Prod.ext (congrArg Except.ok ?_) rfl
  show (m.arena.leaves.zip (m.arena.leaves.map found)).any
      (Outcome.exits ∘ Prod.snd) = _
  rw [← List.any_map, List.map_snd_zip (by simp)]

/-- **If it fails on one of them**, every order fails and changes nothing. -/
theorem Machine.stepIn_eq_error (hc : calls.Steady)
    (hx : x.content = .act action) {e : RunError}
    (h : (m.arena.outcomes calls action).value w = .error e)
    (horder : m.arena.Finishes order) :
    ∃ e', m.stepIn calls x order = (.error e', m) := by
  obtain ⟨leaf, hleaf, e₁, he₁⟩ := Arena.exists_outcome_eq_error hc h
  obtain ⟨i, hi, rfl⟩ := List.mem_iff_getElem.1 hleaf
  obtain ⟨y, hy, rfl⟩ := List.mem_map.1 (horder.mem_iff.2 (List.mem_range.2 hi))
  have htask : m.arena.task calls action y = .error e₁ := by
    rw [Arena.task_eq hc (List.getElem?_eq_getElem hi) w, he₁]
  obtain ⟨e', hfill⟩ :=
    Arena.exists_fill_eq_error (m.arena.leaves.map fun _ => none) hy htask
  refine ⟨e', ?_⟩
  rw [Machine.stepIn, hx]
  dsimp only
  rw [hfill]

/-- **The order in which the tasks of a line finish is of no matter.** With a
steady host, whatever the machine and whatever line is executed, in the script
or in the body of a function: the step succeeds, and then every order in which
the tasks may finish leads to the machine that it leaves and to the same answer
whether the run ends; or it fails, and then it fails in every order. A step
that fails has changed nothing, whichever tasks had already succeeded. -/
theorem Program.step_in_any_order (hh : host.Steady) (program : Program)
    (globals : Bindings Value) (allowance : Nat) {x : Placed Step}
    {p q : Progress} {w v : World σ} {r : Except RunError Bool}
    (h :
      (Drive.step host ⟨program.isNullary, program.call host globals allowance⟩
        x).exec p w
      = (r, q, v)) :
    let calls : Callables σ :=
      ⟨program.isNullary, program.call host globals allowance⟩
    (∃ exits, r = .ok exits ∧ ∀ order, p.arena.Finishes order →
      p.machine.stepIn calls x order = (.ok exits, q.machine)) ∨
    (∃ e, r = .error e ∧ q = p ∧ ∀ order, p.arena.Finishes order →
      ∃ e', p.machine.stepIn calls x order = (.error e', p.machine)) := by
  intro calls
  have hc : calls.Steady := program.steady_call hh globals allowance
  cases hx : x.content with
  | blank =>
    unfold Drive.step Drive.stepWith at h
    rw [hx] at h
    cases h
    refine .inl ⟨false, rfl, fun order _ => ?_⟩
    rw [Machine.stepIn, hx]
  | invalid e =>
    rw [Drive.exec_step_invalid hx] at h
    cases h
    refine .inr ⟨_, rfl, rfl, fun order _ => ⟨.invalid e, ?_⟩⟩
    rw [Machine.stepIn, hx]
  | act action =>
    rw [Drive.exec_step_act hx] at h
    rcases ho : (p.arena.outcomes calls action).exec (w.pause host) with
      ⟨e | outcomes, v'⟩ <;> rw [ho] at h <;> cases h
    · refine .inr ⟨e, rfl, rfl, fun order horder => ?_⟩
      exact Machine.stepIn_eq_error hc hx (congrArg Prod.fst ho) horder
    · refine .inl ⟨_, rfl, fun order horder => ?_⟩
      exact Machine.stepIn_eq_ok hc hx (congrArg Prod.fst ho) horder

end Order

/-- **The second element finishes first**, and its elements come behind that of
the first nevertheless. -/
theorem keepProgram_filter_in_any_order :
    let host := Host.none Unit
    let calls := keepProgram.callables host []
    let input : Value :=
      .array [.array [.text "a"], .array [.text "b", .text "c"]]
    let w : World Unit := ⟨(), 0⟩
    let p :=
      ((Drive.take host calls ⟨.act (.scope { kind := .map }), 0, 0, 1⟩).exec
        (.start input []) w).2.1
    let filter : Placed Step := ⟨.act (.scope { kind := .filter }), 2, 1, 4⟩
    ∃ q v, (Drive.step host calls filter).exec p w = (.ok false, q, v) ∧
      q.arena.branches.toList.map Branch.stream
        = input :: [.array [.text "a"], .array [.text "b", .text "c"],
          .text "a", .text "b", .text "c"] ∧
      p.machine.stepIn calls filter [⟨1, w⟩, ⟨0, w⟩]
      = (.ok false, q.machine) := by
  intro host calls input w p filter
  have hok : ((Drive.step host calls filter).exec p w).1 = .ok false := by cbv
  have hstreams :
      ((Drive.step host calls filter).exec p w).2.1.arena.branches.toList.map
        Branch.stream
        = input :: [.array [.text "a"], .array [.text "b", .text "c"],
          .text "a", .text "b", .text "c"] := by cbv
  have hleaves : p.arena.leaves.length = 2 := by cbv
  have horder : p.arena.Finishes [⟨1, w⟩, ⟨0, w⟩] := by
    rw [Arena.Finishes, hleaves]
    exact .swap 0 1 []
  rcases h : (Drive.step host calls filter).exec p w with ⟨r, q, v⟩
  rw [h] at hok hstreams
  obtain rfl : r = .ok false := hok
  obtain ⟨exits, hexits, hall⟩ | ⟨e, he, -⟩ :=
    keepProgram.step_in_any_order (Host.steady_none Unit) [] callLimit h
  · cases hexits
    exact ⟨q, v, rfl, hstreams, hall _ horder⟩
  · cases he

end StreamScript
