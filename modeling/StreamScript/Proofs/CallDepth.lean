import Mathlib.Data.List.Chain
import StreamScript.Proofs.NotedRuns

/-!
# Runs come to an end

A run needs no budget of steps. Every function of it is one step, which leaves
to others only what ranks lower (`Program.advance`), and the order of the ranks
is well-founded. That is how the functions are made; what happens in a run is
in its notes. Of the tasks that have begun and not ended, each is within the
one begun before it (`Note.within`). They rank lower and lower, the bodies of
functions among them are counted in the depth at which a task is done, and
there are no more of them than may be nested. A call that would make one more
is an error, whatever the path to it: a name alone, a method, an argument, a
line within scopes, or what stands before or behind a scope.
-/

namespace StreamScript

variable {σ : Type}

/-! ## Tasks that have not ended

Read from the front, the notes of a run put a task on a stack when it begins
and take it off when it ends. `Note.within` is this stack after some of the
notes. That what is taken off is what was put on last is not obvious from the
notes; it is what `WellNested` says, by the structure of the run and not by
counting. -/

/-- A note read when some tasks have begun and not ended, the innermost
first. -/
def Note.onto (stack : List Work) : Note → List Work
  | .begun t _ => t :: stack
  | .ended _ _ => stack.tail
  | .aside _ _ => stack

/-- **The tasks that have begun and not ended** after some notes, the innermost
first. -/
def Note.within (around : List Work) (notes : List Note) : List Work :=
  notes.foldl Note.onto around

/-- **Notes of tasks within one another**: what is noted of a task, from its
beginning to its end, is what is noted within it, and every task is rightly
within those around it. -/
inductive WellNested : List Work → List Note → Prop
  | nil {around : List Work} : WellNested around []
  | aside {around : List Work} {label : String} {v : Value} {rest : List Note} :
    WellNested around rest → WellNested around (.aside label v :: rest)
  | task {around : List Work} {t : Work} {before after : List Value}
    {inner rest : List Note} :
    Nesting (t :: around) → WellNested (t :: around) inner →
      WellNested around rest →
      WellNested around (.begun t before :: (inner ++ .ended t after :: rest))

namespace WellNested

variable {around : List Work} {a b notes : List Note}

/-- Notes behind one another in the same task. -/
theorem append (ha : WellNested around a) (hb : WellNested around b) :
    WellNested around (a ++ b) := by
  induction ha with
  | nil => exact hb
  | aside _ ih => exact (ih hb).aside
  | task ht hinner _ _ ih =>
    rw [List.cons_append, List.append_assoc, List.cons_append]
    exact .task ht hinner (ih hb)

/-- In the end everything that has begun has ended. -/
theorem within_eq (h : WellNested around notes) :
    Note.within around notes = around := by
  unfold Note.within
  induction h with
  | nil => rfl
  | aside _ ih => exact ih
  | task _ _ _ ihinner ih =>
    rw [List.foldl_cons, List.foldl_append, List.foldl_cons]
    exact (congrArg (List.foldl Note.onto · _)
      (congrArg List.tail ihinner)).trans ih

/-- Until then what has begun and not ended is rightly one within the other. -/
theorem nesting (h : WellNested around notes) (hn : Nesting around)
    {front : List Note} (hfront : front <+: notes) :
    Nesting (Note.within around front) := by
  induction h generalizing front with
  | nil =>
    obtain rfl := List.prefix_nil.1 hfront
    exact hn
  | @aside around label v rest _ ih =>
    obtain rfl | ⟨later, rfl, hlater⟩ := List.prefix_cons_iff.1 hfront
    · exact hn
    · show Nesting (Note.within around later)
      exact ih hn hlater
  | @task around t before after inner rest ht hinner _ ihinner ih =>
    obtain rfl | ⟨front, rfl, more, hmore⟩ := List.prefix_cons_iff.1 hfront
    · exact hn
    obtain ⟨left, hleft, -⟩ | ⟨past, rfl, hpast⟩ :=
      List.append_eq_append_iff.1 hmore
    · exact ihinner ht ⟨left, hleft.symm⟩
    -- The notes reach beyond those within the task, to its end or further.
    have hprefix : past <+: .ended t after :: rest := ⟨more, hpast.symm⟩
    have hwithin : Note.within around (.begun t before :: (inner ++ past)) =
        Note.within (t :: around) past := by
      show List.foldl Note.onto (t :: around) (inner ++ past) = _
      rw [List.foldl_append]
      exact congrArg (List.foldl Note.onto · past) hinner.within_eq
    rw [hwithin]
    obtain rfl | ⟨later, rfl, hlater⟩ := List.prefix_cons_iff.1 hprefix
    · exact ht
    · show Nesting (Note.within around later)
      exact ih hn hlater

end WellNested

/-- Whatever the values are, the notes of a run are of tasks within one
another. -/
theorem Account.wellNested : Account (fun _ => True) WellNested where
  joins _ := ⟨.nil, WellNested.append⟩
  aside _ := .aside .nil
  within ht h _ _ := .task ht h .nil

/-- Of all values nothing can be said. -/
theorem Keeps.trivial : Keeps fun _ => True where
  text _ := True.intro
  number _ := True.intro
  truth _ := True.intro
  array _ := True.intro
  unary _ _ _ := True.intro
  binary _ _ _ _ := True.intro
  elements _ _ _ _ _ := True.intro
  fold _ _ _ := True.intro
  apply _ _ _ _ := True.intro

/-! ## What is within what

A task is within another if the other has asked for it, and then it ranks
lower. Along the stack the ranks go down from the outermost to the innermost.
The depth of a task counts the bodies around it, and it is compared with the
limit when a body begins. -/

namespace Nesting

variable {stack : List Work}

/-- Tasks within one another rank lower and lower. -/
theorem isChain (h : Nesting stack) :
    stack.IsChain fun t u => t.rank < u.rank := by
  induction h with
  | nil => exact .nil
  | cons _ _ hrank ih => exact List.isChain_cons.2 ⟨hrank, ih⟩

/-- There are no more running bodies than may be nested. -/
theorem bodies_le (h : Nesting stack) : Work.bodies stack ≤ callLimit := by
  induction h with
  | nil => exact Nat.zero_le _
  | @cons t around _ hamid _ ih =>
    have hdepth : Work.bodies (t :: around)
        = Work.bodies around + if t.task.isBody then 1 else 0 :=
      List.countP_cons
    rw [hdepth]
    revert hamid ih
    generalize Work.bodies around = n
    rintro (h | h) ih
    · rw [if_neg (Bool.eq_false_iff.1 h)]
      exact ih
    · exact h

end Nesting

/-! ## Calls at the limit

A call at the greatest depth is refused before anything of the body is done,
with an error that names the function. So no further body begins there,
whatever has led to the call. -/

/-- **A call at the greatest depth** is an error that names the function. -/
theorem Program.call_at_limit (p : Program) (host : Host σ)
    (globals : Bindings Value) {name : String} {d : FunctionDef}
    (hd : p.function? name = some d) {arguments : List Value}
    (harity : arguments.length ≤ d.params.length) (target : Value)
    (q : Progress) (w : World σ) :
    (p.carryOut host globals ⟨callLimit, .call name target arguments⟩).exec q w
      = (.error (.recursion name callLimit), q, w) := by
  have hfound : (d.name == name) = true := by
    unfold function? at hd
    exact List.find?_some (p := fun d : FunctionDef => d.name == name) hd
  have hok : checkArity name 0 d.params.length arguments.length = .ok () :=
    if_neg (by omega)
  simp only [carryOut, Nat.sub_self]
  rw [call_zero_of_some hd, hok, eq_of_beq hfound]
  rfl

/-- **A program whose runs come to an end**, and by what. -/
structure Program.Terminates (p : Program) (host : Host σ)
    (globals : Bindings Value) : Prop where
  /-- There is no way down the ranks without an end. -/
  wellFounded : WellFounded fun t u : Work => t.rank < u.rank
  /-- The functions of a run go step by step, and a step leaves to others only
  what ranks lower than its own task. -/
  stepwise : ∀ t, p.carryOut host globals t =
    p.advance host globals t fun u (_ : u.rank < t.rank) =>
    p.carryOut host globals u
  /-- The steps leave nothing open: what goes by them is these functions. -/
  determined : ∀ other : (t : Work) → Drive σ t.task.Answer,
    (∀ t, other t = p.advance host globals t fun u (_ : u.rank < t.rank) =>
      other u) →
      other = p.carryOut host globals
  /-- A run is what is done about its lines amid no call. -/
  run : ∀ input w, (p.run host globals input).run w =
    let (r, q, w') := (p.carryOut host globals
      ⟨0, .lines (some (w.generation + 1)) p.steps⟩).exec
      (.start input globals) w.begin
    (RunResult.of? r q, w')
  /-- To take notes makes no difference to a run. -/
  noted : ∀ input w, ((p.notedRun host globals input w).result,
    (p.notedRun host globals input w).world) = (p.run host globals input).run w
  /-- The notes are of tasks within one another, all of which come to their
  ends. -/
  notes : ∀ input w, WellNested [] (p.notedRun host globals input w).notes
  /-- At any moment, each task that has not ended ranks lower than the one it
  is within. -/
  descending : ∀ input w front,
    front <+: (p.notedRun host globals input w).notes →
    (Note.within [] front).IsChain fun t u => t.rank < u.rank
  /-- At any moment, the innermost task is done at the depth of the bodies that
  are running. -/
  depth : ∀ input w front, front <+: (p.notedRun host globals input w).notes →
    ∀ t ∈ (Note.within [] front).head?,
      t.depth = Work.bodies (Note.within [] front)
  /-- At any moment, no more bodies are running than calls may be nested. -/
  nested : ∀ input w front, front <+: (p.notedRun host globals input w).notes →
    Work.bodies (Note.within [] front) ≤ callLimit
  /-- A call at the greatest depth fails, and nothing else happens. -/
  recursion : ∀ name d, p.function? name = some d → ∀ target arguments,
    arguments.length ≤ d.params.length → ∀ q w,
      (p.carryOut host globals ⟨callLimit, .call name target arguments⟩).exec q
        w = (.error (.recursion name callLimit), q, w)

/-- **Every run comes to an end**: what is left to do ranks lower with every
step, and calls nest no deeper than they may. -/
theorem Program.terminates (p : Program) (host : Host σ)
    (globals : Bindings Value) :
    p.Terminates host globals := by
  have accounts : ∀ input w,
      (p.notedRun host globals input w).Accounts (fun _ => True) (WellNested [])
      ((p.run host globals input).run w) := fun _ w =>
    p.notedRun_accounts host Keeps.trivial Account.wellNested
      (fun _ _ => True.intro) True.intro w
  have hnotes : ∀ input w,
      WellNested [] (p.notedRun host globals input w).notes :=
    fun input w => (accounts input w).notes
  exact {
    wellFounded := InvImage.wf Work.rank wellFounded_lt
    stepwise := p.carryOut_eq_advance host globals
    determined := fun _ => p.eq_carryOut host globals
    run := p.run_eq_carryOut host globals
    noted := fun input w => (accounts input w).same
    notes := hnotes
    descending :=
    fun input w _ hfront => ((hnotes input w).nesting .nil hfront).isChain
    depth := fun input w front hfront t ht => by
      have hnesting := (hnotes input w).nesting .nil hfront
      cases hstack : Note.within [] front with
      | nil =>
        rw [hstack] at ht
        cases ht
      | cons u around =>
        rw [hstack] at ht hnesting
        obtain rfl := Option.some.inj ht
        exact hnesting.depth_eq
    nested :=
    fun input w _ hfront => ((hnotes input w).nesting .nil hfront).bodies_le
    recursion := fun _ _ hd target _ harity => p.call_at_limit host globals hd
      harity target }

end StreamScript
