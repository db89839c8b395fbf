import StreamScript.Proofs.Keeping
import StreamScript.Proofs.Work

/-!
# A run that takes notes

To speak of all that happens in a run, the run is made to take notes
(`Program.noting`): whenever a task is begun and whenever one is ended, be it
by an error, it writes down which task that is and every value that is there at
that moment; and it writes down what is put aside. The notes are kept by the
host, and nothing of the run looks at them.

`Drive.Follows` says what it means that one drive does the same as another and
takes notes on the way. It is kept by all that drives are put together with,
and in the end a task with the notes of its beginning and its end follows the
task alone (`Drive.Follows.noted`).
-/

namespace StreamScript

variable {σ α β : Type}

namespace Task

/-! ## Values that are there

Of every task it is said which values it is given and which come of it.
Together with all values in the arena these are the values that are there when
it begins and when it ends. -/

/-- The values that a task is given. -/
def given : Task → List Value
  | .eval _ scope | .evalAll _ scope | .chain _ scope | .execute _ scope =>
    scope.values
  | .call _ target arguments | .body _ target arguments => target :: arguments
  | .fold _ _ | .close _ | .lines _ _ => []

/-- The values that come of a task. -/
def made : (t : Task) → t.Answer → List Value
  | .eval _ _, v | .chain _ _, v | .call _ _ _, v | .body _ _ _, v => [v]
  | .evalAll _ _, vs => vs
  | .execute _ _, o => o.values
  | .fold _ _, _ | .close _, _ | .lines _ _, _ => []

/-- The values that come of a task that may have failed. -/
def madeBy (t : Task) : Except RunError t.Answer → List Value
  | .ok answer => t.made answer
  | .error _ => []

/-- Whether a task is to run the body of a function. -/
def isBody : Task → Bool
  | .body _ _ _ => true
  | _ => false

end Task

/-! ## Notes

Notes are kept beside the state of the host, and answers do not depend on them.
A run that takes notes is made by the same recursion on ranks as the run
itself, each step wrapped into two notes, and is asked of the host that keeps
them. It is not computed with, so it need not be computable. -/

/-- **A note of a run.** -/
inductive Note where
  /-- A task has begun, with the values that are there. -/
  | begun (work : Work) (values : List Value)
  /-- A task has ended, with the values that are there. -/
  | ended (work : Work) (values : List Value)
  /-- A value has been put aside. -/
  | aside (label : String) (v : Value)

/-- The values in a note. -/
def Note.values : Note → List Value
  | .begun _ values | .ended _ values => values
  | .aside _ v => [v]

/-- A request answered by a host that keeps notes besides, and takes some of
the request. -/
def Reply.noting (ask : σ → Reply σ α) (notes : List Note) (s : σ × List Note) :
    Reply (σ × List Note) α :=
  let reply := ask s.1
  { reply with state := (reply.state, s.2 ++ notes) }

/-- **A host that keeps notes besides.** They make no difference to what it
answers. -/
def Host.noting (host : Host σ) : Host (σ × List Note) where
  sideOutput label v := Reply.noting (host.sideOutput label v) [.aside label v]
  listFiles := Reply.noting host.listFiles []
  loadFile name := Reply.noting (host.loadFile name) []
  pause s :=
    let (state, begun) := host.pause s.1
    ((state, s.2), begun)

namespace World

/-- The world without the notes. -/
def plain (w : World (σ × List Note)) : World σ :=
  { host := w.host.1, generation := w.generation }

/-- The notes. -/
def notes (w : World (σ × List Note)) : List Note :=
  w.host.2

/-- The world with no notes yet. -/
def unnoted (w : World σ) : World (σ × List Note) :=
  { host := (w.host, []), generation := w.generation }

/-- Takes a note. -/
def note (w : World (σ × List Note)) (n : Note) : World (σ × List Note) :=
  { w with host := (w.host.1, w.host.2 ++ [n]) }

/-- A note is put behind the others. -/
theorem notes_note (w : World (σ × List Note)) (n : Note) :
    (w.note n).notes = w.notes ++ [n] := rfl

end World

/-- **A task with the notes of its beginning and its end.** -/
def Drive.noted (t : Work) (d : Drive (σ × List Note) t.task.Answer) :
    Drive (σ × List Note) t.task.Answer :=
  fun (q : Progress) (w : World (σ × List Note)) =>
    let (r, q', w') :=
      d.exec q (w.note (.begun t (t.task.given ++ q.machine.arena.values)))
    ((r, q'), w'.note (.ended t (t.task.madeBy r ++ q'.machine.arena.values)))

theorem Drive.exec_noted (t : Work) (d : Drive (σ × List Note) t.task.Answer)
    (q : Progress) (w : World (σ × List Note)) :
    (Drive.noted t d).exec q w =
      let (r, q', w') :=
      d.exec q (w.note (.begun t (t.task.given ++ q.machine.arena.values)))
      (r, q', w'.note (.ended t (t.task.madeBy r ++ q'.machine.arena.values))) :=
  rfl

/-- **A run that takes notes** of every task. -/
noncomputable def Program.noting (p : Program) (host : Host σ)
    (globals : Bindings Value) :
    (t : Work) → Drive (σ × List Note) t.task.Answer :=
  (InvImage.wf Work.rank wellFounded_lt).fix fun t go =>
    Drive.noted t (p.advance host.noting globals t go)

/-- The recursion, unfolded once. -/
theorem Program.noting_eq (p : Program) (host : Host σ)
    (globals : Bindings Value) (t : Work) :
    p.noting host globals t =
      Drive.noted t (p.advance host.noting globals t fun u _ =>
        p.noting host globals u) :=
  WellFounded.fix_eq _ _ _

/-! ## Two runs at once

The run with notes and the run without go together from step to step. They have
the same results, the same machines and the same worlds but for the notes.
Along the way the values in the arena keep a property, results satisfy what is
asked of them, and the notes that are added are of a given kind; all three are
part of the comparison because each is needed to go on. -/

/-- What a run with notes has done, against the run without them. -/
structure Alongside (Good : Value → Prop) (L : List Note → Prop)
    (post : α → Prop) (before : List Note)
    (plain : Except RunError α × Progress × World σ)
    (noted : Except RunError α × Progress × World (σ × List Note)) : Prop where
  result : noted.1 = plain.1
  progress : noted.2.1 = plain.2.1
  world : noted.2.2.plain = plain.2.2
  notes : ∃ more, noted.2.2.notes = before ++ more ∧ L more
  holds : plain.2.1.machine.arena.Holds Good
  gives : Gives post plain.1

/-- **A drive that another one follows with notes.** -/
def Drive.Follows (Good : Value → Prop) (L : List Note → Prop) (post : α → Prop)
    (x : Drive σ α) (y : Drive (σ × List Note) α) : Prop :=
  ∀ q w, q.machine.arena.Holds Good →
    Alongside Good L post w.notes (x.exec q w.plain) (y.exec q w)

/-- Notes that can be put together. -/
structure Joins (L : List Note → Prop) : Prop where
  nil : L []
  append : ∀ {a b}, L a → L b → L (a ++ b)

namespace Drive.Follows

variable {Good : Value → Prop} {L : List Note → Prop} {post : α → Prop}
    {post' : β → Prop}

/-- Less may be asked of the result. -/
theorem mono {x : Drive σ α} {y : Drive (σ × List Note) α} {weaker : α → Prop}
    (h : Follows Good L post x y) (hpost : ∀ a, post a → weaker a) :
    Follows Good L weaker x y :=
  fun q w hq =>
    let ⟨hresult, hprogress, hworld, hnotes, hholds, hgives⟩ := h q w hq
    ⟨hresult, hprogress, hworld, hnotes, hholds,
      fun a ha => hpost a (hgives a ha)⟩

/-- Where no note is taken, the two only have to do the same. -/
theorem quiet (hL : Joins L) {r : Except RunError α} {q : Progress}
    {w : World (σ × List Note)} (hq : q.machine.arena.Holds Good)
    (hpost : ∀ a, r = .ok a → post a) :
    Alongside Good L post w.notes (r, q, w.plain) (r, q, w) :=
  ⟨rfl, rfl, rfl, ⟨[], (List.append_nil _).symm, hL.nil⟩, hq, hpost⟩

theorem pure (hL : Joins L) {a : α} (ha : post a) :
    Follows Good L post (Pure.pure a : Drive σ α) (Pure.pure a) :=
  fun _ _ hq => quiet hL hq (by rintro _ ⟨⟩; exact ha)

theorem throw (hL : Joins L) (e : RunError) :
    Follows Good L post (MonadExcept.throw e : Drive σ α)
      (MonadExcept.throw e) :=
  fun _ _ hq => quiet hL hq nofun

/-- What is done to values alone. -/
theorem lift (hL : Joins L) {r : Except RunError α} (h : Gives post r) :
    Follows Good L post (perform (liftM r) : Drive σ α) (perform (liftM r)) :=
  fun _ _ hq => quiet hL hq h

theorem machine (hL : Joins L) :
    Follows Good L (fun m => m.arena.Holds Good)
      (Drive.machine : Drive σ Machine) Drive.machine :=
  fun _ _ hq => quiet hL hq (by rintro _ ⟨⟩; exact hq)

theorem become (hL : Joins L) {m : Machine} (hm : m.arena.Holds Good) :
    Follows Good L (fun _ => True) (Drive.become m : Drive σ Unit)
      (Drive.become m) :=
  fun q _ _ => quiet (q := { q with machine := m }) hL hm fun _ _ => trivial

theorem arrive (hL : Joins L) (line : Nat) :
    Follows Good L (fun _ => True) (Drive.arrive line : Drive σ Unit)
      (Drive.arrive line) :=
  fun q _ hq => quiet (q := { q with lastLine := line }) hL hq
    fun _ _ => trivial

theorem pause (hL : Joins L) (host : Host σ) :
    Follows Good L (fun _ => True) (Drive.pause host)
      (Drive.pause host.noting) :=
  fun _ w hq => quiet (w := w.pause host.noting) hL hq fun _ _ => trivial

theorem isSuperseded (hL : Joins L) (host : Host σ) (token : Option Nat) :
    Follows Good L (fun _ => True) (Drive.isSuperseded host token)
      (Drive.isSuperseded host.noting token) :=
  fun _ w hq => quiet (w := w.pause host.noting) hL hq fun _ _ => trivial

/-- A request, and the same request to the host that keeps notes. -/
theorem request (ask : σ → Reply σ α) {notes : List Note} (h : L notes) :
    Follows Good L (fun _ => True) (perform (Act.request ask))
      (perform (Act.request (Reply.noting ask notes))) :=
  fun _ _ hq => ⟨rfl, rfl, rfl, ⟨notes, rfl, h⟩, hq, fun _ _ => trivial⟩

/-- Sequences: the notes of the first come before those of the second. -/
theorem bind (hL : Joins L) {x : Drive σ α} {y : Drive (σ × List Note) α}
    {f : α → Drive σ β} {g : α → Drive (σ × List Note) β}
    (hx : Follows Good L post x y)
    (hf : ∀ a, post a → Follows Good L post' (f a) (g a)) :
    Follows Good L post' (x >>= f) (y >>= g) := by
  intro q w hq
  obtain ⟨hresult, hprogress, hworld, ⟨more, hmore, hl⟩, hholds, hpost⟩ :=
    hx q w hq
  rw [exec_bind, exec_bind]
  rcases hplain : x.exec q w.plain with ⟨r, q₁, w₁⟩
  rcases hnoted : y.exec q w with ⟨r', q₁', w₁'⟩
  rw [hplain] at hresult hprogress hworld hholds hpost
  rw [hnoted] at hresult hprogress hworld hmore
  dsimp only at hresult hprogress hworld hmore hholds hpost
  subst hresult hprogress hworld
  cases r' with
  | error e => exact ⟨rfl, rfl, rfl, ⟨more, hmore, hl⟩, hholds, nofun⟩
  | ok a =>
    obtain ⟨hresult, hprogress, hworld, ⟨more', hmore', hl'⟩, hholds',
        hpost'⟩ :=
      hf a (hpost a rfl) q₁' w₁' hholds
    refine ⟨hresult, hprogress, hworld, ⟨more ++ more', ?_, hL.append hl hl'⟩,
      hholds', hpost'⟩
    rw [hmore', hmore, List.append_assoc]

/-- To put the blame for an error on a line changes neither notes nor values.
-/
theorem blame {x : Drive σ α} {y : Drive (σ × List Note) α}
    (h : Follows Good L post x y) (line : Nat) :
    Follows Good L post (Drive.blame line x) (Drive.blame line y) := by
  intro q w hq
  obtain ⟨hresult, hprogress, hworld, hnotes, hholds, hpost⟩ := h q w hq
  rw [exec_blame, exec_blame]
  rcases hplain : x.exec q w.plain with ⟨r, q₁, w₁⟩
  rcases hnoted : y.exec q w with ⟨r', q₁', w₁'⟩
  rw [hplain] at hresult hprogress hworld hholds hpost
  rw [hnoted] at hresult hprogress hworld hnotes
  dsimp only at hresult hprogress hworld hnotes hholds hpost
  subst hresult hprogress hworld
  cases r' with
  | error e => exact ⟨rfl, rfl, rfl, hnotes, hholds, nofun⟩
  | ok a => exact ⟨rfl, rfl, rfl, hnotes, hholds, hpost⟩

/-- A list is gone through element by element, and each element may take notes.
-/
theorem mapM (hL : Joins L) {f : α → Drive σ β}
    {g : α → Drive (σ × List Note) β} {l : List α}
    (h : ∀ a ∈ l, Follows Good L post' (f a) (g a)) :
    Follows Good L (fun bs => ∀ b ∈ bs, post' b) (l.mapM f) (l.mapM g) := by
  induction l with
  | nil => exact pure hL (by simp)
  | cons a l ih =>
    obtain ⟨ha, hl⟩ := List.forall_mem_cons.1 h
    simp only [List.mapM_cons]
    exact bind hL ha fun b hb => bind hL (ih hl) fun bs hbs =>
      pure hL (List.forall_mem_cons.2 ⟨hb, hbs⟩)

/-- Lines that are run from a beginning of their own. -/
theorem within (hG : Keeps Good) {start : Progress}
    (hstart : start.machine.arena.Holds Good) {x : Drive σ Ending}
    {y : Drive (σ × List Note) Ending} {post : Ending → Prop}
    (h : Follows Good L post x y) :
    Follows Good L Good (perform (Drive.within start x))
    (perform (Drive.within start y)) := by
  intro q w hq
  obtain ⟨hresult, hprogress, hworld, hnotes, hholds, hpost⟩ := h start w hstart
  rw [exec_perform, exec_perform, exec_within, exec_within]
  rcases hplain : x.exec start w.plain with ⟨r, q₁, w₁⟩
  rcases hnoted : y.exec start w with ⟨r', q₁', w₁'⟩
  rw [hplain] at hresult hprogress hworld hholds
  rw [hnoted] at hresult hprogress hworld hnotes
  dsimp only at hresult hprogress hworld hnotes hholds
  subst hresult hprogress hworld
  cases r' with
  | error e => exact ⟨rfl, rfl, rfl, hnotes, hq, nofun⟩
  | ok ending =>
    exact ⟨rfl, rfl, rfl, hnotes, hq, by rintro _ ⟨⟩; exact hholds.output hG⟩

/-- **A task with its notes**, if it is an account with them around it. -/
theorem noted {inner : List Note → Prop} {t : Work}
    {post : t.task.Answer → Prop} {x : Drive σ t.task.Answer}
    {y : Drive (σ × List Note) t.task.Answer} (hgiven : ∀ v ∈ t.task.given,
      Good v) (hmade : ∀ a, post a → ∀ v ∈ t.task.made a, Good v)
    (haround : ∀ {more before after}, inner more → (∀ v ∈ before, Good v) →
      (∀ v ∈ after, Good v) → L (.begun t before :: more ++ [.ended t after]))
    (h : Follows Good inner post x y) :
    Follows Good L post x (Drive.noted t y) := by
  intro q w hq
  have hbefore : ∀ v ∈ t.task.given ++ q.machine.arena.values, Good v := by
    rw [List.forall_mem_append]
    exact ⟨hgiven, hq⟩
  have alongside : Alongside Good inner post
      (w.note (.begun t (t.task.given ++ q.machine.arena.values))).notes
      (x.exec q w.plain)
      (y.exec q (w.note (.begun t (t.task.given ++ q.machine.arena.values)))) :=
      h q (w.note _) hq
  obtain ⟨hresult, hprogress, hworld, ⟨more, hmore, hinner⟩, hholds, hpost⟩ :=
    alongside
  rw [exec_noted]
  rcases hplain : x.exec q w.plain with ⟨r, q₁, w₁⟩
  rcases hnoted :
      y.exec q (w.note (.begun t (t.task.given ++ q.machine.arena.values))) with
    ⟨r', q₁', w₁'⟩
  rw [hplain] at hresult hprogress hworld hholds hpost
  rw [hnoted] at hresult hprogress hworld hmore
  dsimp only at hresult hprogress hworld hmore hholds hpost ⊢
  subst hresult hprogress hworld
  have hafter : ∀ v ∈ t.task.madeBy r' ++ q₁'.machine.arena.values, Good v := by
    rw [List.forall_mem_append]
    refine ⟨?_, hholds⟩
    cases r' with
    | error e => exact nofun
    | ok answer => exact hmade answer (hpost answer rfl)
  refine ⟨rfl, rfl, rfl, ⟨_, ?_, haround hinner hbefore hafter⟩, hholds, hpost⟩
  rw [World.notes_note, hmore, World.notes_note]
  simp only [List.append_assoc, List.cons_append, List.nil_append]

end Drive.Follows

end StreamScript
