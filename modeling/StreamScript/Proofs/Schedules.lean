import StreamScript.Run.Schedule
import StreamScript.Proofs.Steady
import StreamScript.Proofs.Supersession

/-!
# Whole runs, with the tasks done in any order

A schedule settles in which order the tasks of the leaves are done, at every
line that a run executes and in every call that its tasks make. A script cannot
choose it, so what can be said about a run has to hold on every schedule. This
module says how much that is.

`Program.run_in_any_order` is the answer for a steady host, one whose answers
depend on the request alone. On every schedule the run comes to its end or on
every schedule it fails; it fails at the same line, and what it hands back is
the same. Only the error may be another one: where several leaves fail at the
same line, that of the first to fail is the one seen.

It rests on one fact about a single line (`Schedule.alike_tasks`). What comes of
a task depends neither on the others nor on the world it meets, and the outcomes
are put where they belong, so the order is not to be seen in them. From there
the comparison goes along the run as every other one does: calls with less of
the allowance are alike, hence lines, hence calls with more of it.

`Program.runIn_leftToRight` ties the two kinds of runs together. With the tasks
from left to right a run on schedule is the run itself, its error and what it
leaves of the world included.
-/

namespace StreamScript

variable {σ α β : Type}

/-! ## Lists gone through in an order

A list that is gone through element by element comes to something if every
element does, and then to the list of what they come to. In which order it is
gone through can only be seen in what is met first, and not if each element is
found again by its place. -/

section Places

/-- If every element comes to something, -/
theorem mapM_eq_some_map {f : α → Option β} {g : α → β} {l : List α}
    (h : ∀ a ∈ l, f a = some (g a)) : l.mapM f = some (l.map g) := by
  induction l with
  | nil => rfl
  | cons a l ih =>
    obtain ⟨ha, hl⟩ := List.forall_mem_cons.1 h
    rw [List.mapM_cons, ha, ih hl]
    rfl

/-- and if one of them does not. -/
theorem mapM_eq_none {f : α → Option β} {l : List α} {a : α} (ha : a ∈ l)
    (h : f a = none) :
    l.mapM f = none := by
  induction l with
  | nil => cases ha
  | cons b l ih =>
    rw [List.mapM_cons]
    obtain rfl | ha := List.mem_cons.1 ha
    · rw [h]
      rfl
    · rw [ih ha]
      cases f b <;> rfl

/-- What belongs to a place is found there. -/
theorem lookup_map_mk {f : Nat → β} {l : List Nat} {i : Nat} (hi : i ∈ l) :
    (l.map fun j => (j, f j)).lookup i = some (f i) := by
  induction l with
  | nil => cases hi
  | cons j l ih =>
    rw [List.map_cons, List.lookup_cons]
    by_cases h : i = j
    · subst h
      rw [beq_self_eq_true]
    · rw [beq_false_of_ne h]
      exact ih ((List.mem_cons.1 hi).resolve_left h)

/-- **Everything has been put where it belongs**, in whatever order it has
come. The order is a permutation, so every place is found, and it is found with
its own element since none comes twice. -/
theorem filterMap_lookup_map_mk (f : Nat → β) {order : List Nat} {n : Nat}
    (h : order.Perm (List.range n)) :
    (List.range n).filterMap (fun i => (order.map fun j => (j, f j)).lookup i)
      = (List.range n).map f := by
  have hfound :
      (List.range n).filterMap (fun i => (order.map fun j => (j, f j)).lookup i)
      = (List.range n).filterMap (some ∘ f) :=
    List.filterMap_congr fun i hi => lookup_map_mk (h.mem_iff.2 hi)
  rw [hfound, List.filterMap_eq_map]

/-- The elements of a list, read place by place. -/
theorem map_range_getElem? (g : α → β) (l : List α) (a : α) :
    (List.range l.length).map (fun i => g (l[i]?.getD a)) = l.map g := by
  refine List.ext_getElem (by simp) fun i hi _ => ?_
  rw [List.length_map, List.length_range] at hi
  rw [List.getElem_map, List.getElem_map, List.getElem_range,
    List.getElem?_eq_getElem hi]
  rfl

/-- Elements that come in order are found again, each by its place. -/
theorem filterMap_lookup_zip (l : List α) (a : α) :
    (List.range l.length).filterMap
      (fun i => ((List.range l.length).zip l).lookup i) = l := by
  have hzip : (List.range l.length).zip l
      = (List.range l.length).map fun i => (i, l[i]?.getD a) := by
    refine List.ext_getElem (by simp) fun i hi _ => ?_
    have hlt : i < l.length := by simpa using hi
    rw [List.getElem_zip, List.getElem_map, List.getElem_range,
      List.getElem?_eq_getElem hlt]
    rfl
  rw [hzip, filterMap_lookup_map_mk (fun i => l[i]?.getD a) (.refl _)]
  exact (map_range_getElem? id l a).trans l.map_id

end Places

/-- An act has a value on a list if it has one on every element. -/
theorem Act.toOption_mapM {f : α → Act σ β} {g : α → Option β} {l : List α}
    (h : ∀ a ∈ l, ∀ w, ((f a).exec w).1.toOption = g a) (w : World σ) :
    ((l.mapM f).exec w).1.toOption = l.mapM g := by
  induction l generalizing w with
  | nil => rfl
  | cons a l ih =>
    obtain ⟨ha, hl⟩ := List.forall_mem_cons.1 h
    rw [List.mapM_cons, List.mapM_cons, exec_bind, ← ha w]
    rcases (f a).exec w with ⟨_ | b, v⟩
    · rfl
    · have hrest := ih hl v
      show ((l.mapM f >>= fun bs => pure (b :: bs) : Act σ (List β)).exec
          v).1.toOption = _
      rw [exec_bind]
      rcases hx : (l.mapM f).exec v with ⟨_ | bs, v'⟩ <;> rw [hx] at hrest <;>
        exact congrArg (fun o => o >>= fun bs => some (b :: bs)) hrest

/-- What is made of a result is made of it wherever the act is performed. -/
theorem Act.toOption_map (x : Act σ α) (f : α → β) (w : World σ) :
    ((x >>= fun a => pure (f a)).exec w).1.toOption
      = (x.exec w).1.toOption.map f := by
  rw [exec_bind]
  rcases x.exec w with ⟨_ | a, v⟩ <;> rfl

/-! ## A line on schedule -/

namespace Schedule

variable {c : Callables (Timed σ)} {d : Callables σ}

/-- A turn asks for the moment and lets it pass. What comes behind it goes on
in the moments that follow. -/
theorem exec_turn_bind (s : Schedule σ) (f : Nat → Act (Timed σ) α)
    (w : World (Timed σ)) :
    (s.turn >>= f).exec w = (f w.host.moment).exec (s.turn.exec w).2 := by
  rw [Act.exec_bind]
  rfl

/-- A task has the value of its leaf, whatever has happened until it has its
turn. -/
theorem toOption_task (s : Schedule σ) {a : Arena} {action : Action}
    {found : Nat → Option Outcome}
    (h : ∀ leaf w, ((a.outcome c action leaf).exec w).1.toOption = found leaf)
    (place : Nat) (w : World (Timed σ)) :
    ((s.task a c action place).exec w).1.toOption
      = (a.leaves[place]?.bind found).map (Prod.mk place) := by
  unfold task Arena.taskAt
  rw [exec_turn_bind, Act.toOption_map]
  cases a.leaves[place]? with
  | none => rfl
  | some leaf => exact congrArg (Option.map (Prod.mk place)) (h leaf _)

/-- **A line on schedule comes to what it comes to from left to right**, or
fails as well. If no leaf fails all outcomes arrive, and are put in the places
of their leaves. If one fails it fails on every schedule, at the latest when it
has its turn, and then so does the line. -/
theorem alike_tasks (s : Schedule σ) :
    Tasks.Related (fun x (y : Act σ _) => Act.Alike x y) s.tasks
      Arena.outcomes := by
  intro c d hc a action w w'
  -- What comes of a leaf is the same in all worlds, on schedule and from left
  -- to right.
  let found : Nat → Option Outcome :=
    fun leaf => ((a.outcome d action leaf).exec w').1.toOption
  have hscheduled : ∀ leaf v, ((a.outcome c action leaf).exec v).1.toOption
      = found leaf :=
    fun leaf v => a.outcome_related Act.alike_closed hc action leaf v w'
  have hinOrder : ∀ leaf v, ((a.outcome d action leaf).exec v).1.toOption
      = found leaf :=
    fun leaf v =>
      (a.outcome_related Act.alike_closed hc action leaf w v).symm.trans
        (hscheduled leaf w)
  have horder := s.perm w.host.moment a.leaves.length
  unfold tasks Arena.outcomes
  rw [exec_turn_bind, Act.toOption_map,
    Act.toOption_mapM fun place _ => s.toOption_task hscheduled place,
    Act.toOption_mapM fun leaf _ => hinOrder leaf]
  by_cases hfails : ∃ leaf ∈ a.leaves, found leaf = none
  · obtain ⟨leaf, hleaf, hnone⟩ := hfails
    obtain ⟨place, hlt, rfl⟩ := List.mem_iff_getElem.1 hleaf
    have hplace : (a.leaves[place]?.bind found).map (Prod.mk place) = none := by
      rw [List.getElem?_eq_getElem hlt]
      exact congrArg (Option.map (Prod.mk place)) hnone
    rw [mapM_eq_none (horder.mem_iff.2 (List.mem_range.2 hlt)) hplace,
      mapM_eq_none hleaf hnone]
    rfl
  · let g : Nat → Outcome := fun leaf => (found leaf).getD { stream := .empty }
    have hg : ∀ leaf ∈ a.leaves,
        found leaf = some (g leaf) := fun leaf hleaf => by
      obtain ⟨o, ho⟩ :=
        Option.ne_none_iff_exists'.1 fun hnone => hfails ⟨leaf, hleaf, hnone⟩
      show found leaf = some ((found leaf).getD _)
      rw [ho]
      rfl
    have hplaces : ∀ place ∈ s.order w.host.moment a.leaves.length,
        (a.leaves[place]?.bind found).map (Prod.mk place)
          = some (place, g (a.leaves[place]?.getD 0)) := fun place hplace => by
      have hlt := List.mem_range.1 (horder.mem_iff.1 hplace)
      rw [List.getElem?_eq_getElem hlt]
      exact congrArg (Option.map (Prod.mk place)) (hg _ (List.getElem_mem hlt))
    rw [mapM_eq_some_map hplaces, mapM_eq_some_map hg]
    exact congrArg some
      ((filterMap_lookup_map_mk (fun place => g (a.leaves[place]?.getD 0))
        horder).trans (map_range_getElem? g a.leaves 0))

end Schedule

/-- A relation that the moments keep is kept by a line on schedule. -/
theorem Schedule.tasks_related {R : ∀ {α : Type}, Act (Timed σ) α →
    Act (Timed σ) α → Prop} (hR : Act.Closed R) (s : Schedule σ)
    (hturn : R s.turn s.turn) :
    Tasks.Related R s.tasks s.tasks := by
  intro c d hc a action
  refine hR.bind hturn fun moment => ?_
  refine hR.bind (hR.ordinarily.mapM _ fun place _ => ?_) fun arrived =>
    hR.pure _
  refine hR.bind hturn fun _ => hR.bind ?_ fun outcome => hR.pure _
  unfold Arena.taskAt
  cases a.leaves[place]? with
  | some leaf => exact a.outcome_related hR hc action leaf
  | none => exact hR.throw _ rfl

/-! ## Drives -/

namespace Drive

variable {τ υ : Type}

/-- **Two drives that take the same course**: they come to the same value or
fail both, and either way they leave the same progress, whatever worlds they
meet. -/
def SameCourse (d : Drive σ α) (d' : Drive τ α) : Prop :=
  ∀ p w w', (d.exec p w).1.toOption = (d'.exec p w').1.toOption ∧
    (d.exec p w).2.1 = (d'.exec p w').2.1

/-- What two drives take in common with a third they have in common. -/
theorem SameCourse.trans_symm [Inhabited (World τ)] {d : Drive σ α}
    {d' : Drive τ α} {d'' : Drive υ α} (h : SameCourse d d')
    (h' : SameCourse d'' d') : SameCourse d d'' :=
  fun p w w' =>
    ⟨(h p w default).1.trans (h' p w' default).1.symm,
      (h p w default).2.trans (h' p w' default).2.symm⟩

/-- **To take the same course is kept by all primitives**: the hosts may be
different, since a pause leaves nothing in the progress of either. The worlds
of the two runs are not compared at all: the one counts moments, and what tasks
do meanwhile shows in it. -/
theorem sameCourse_coupled (host : Host σ) (host' : Host τ) :
    Coupled (fun (x : Act σ _) (y : Act τ _) => Act.Alike x y)
      (fun (d : Drive σ _) (d' : Drive τ _) => SameCourse d d') host host' where
  pure _ _ _ _ := ⟨rfl, rfl⟩
  bind {_ _ d d' f f'} hd hf p w w' := by
    obtain ⟨hvalue, hleft⟩ := hd p w w'
    rw [exec_bind, exec_bind]
    rcases hx : d.exec p w with ⟨_ | a, q, v⟩ <;>
      rcases hy : d'.exec p w' with ⟨_ | a', q', v'⟩ <;>
      rw [hx, hy] at hvalue hleft
    · exact ⟨rfl, hleft⟩
    · cases hvalue
    · cases hvalue
    · obtain rfl : a = a' := Option.some.inj hvalue
      obtain rfl : q = q' := hleft
      exact hf a q v v'
  machine _ _ _ := ⟨rfl, rfl⟩
  become _ _ _ _ := ⟨rfl, rfl⟩
  arrive _ _ _ _ := ⟨rfl, rfl⟩
  pause _ _ _ := ⟨rfl, rfl⟩
  perform hxy p w w' := ⟨hxy w w', rfl⟩
  blame {_ d d'} line h p w w' := by
    obtain ⟨hvalue, hleft⟩ := h p w w'
    rw [exec_blame, exec_blame]
    rcases hx : d.exec p w with ⟨_ | a, q, v⟩ <;>
      rcases hy : d'.exec p w' with ⟨_ | a', q', v'⟩ <;>
      rw [hx, hy] at hvalue hleft
    · obtain rfl : q = q' := hleft
      exact ⟨rfl, rfl⟩
    · cases hvalue
    · cases hvalue
    · exact ⟨hvalue, hleft⟩

end Drive

/-! ## Calls of functions -/

/-- A steady host answers as ever, whatever the moment. -/
theorem Host.Steady.alike_timed {host : Host σ} (hh : host.Steady) :
    host.timed.Related (fun x (y : Act σ _) => Act.Alike x y) host := by
  have hrequest :
      ∀ {γ : Type} {ask : Timed σ → Reply (Timed σ) γ} {ask' : σ → Reply σ γ},
      (∀ t state, (ask t).answer = (ask' state).answer) →
        Act.Alike (Act.request ask) (Act.request ask') := fun h w w' => by
    rw [Act.exec_request, Act.exec_request, h w.host w'.host]
  exact ⟨fun label v => hrequest fun t => hh.sideOutput label v t.state,
    hrequest fun t => hh.listFiles t.state,
    fun name => hrequest fun t => hh.loadFile name t.state⟩

/-- A body that takes the same course has the same value as a call. -/
theorem FunctionDef.alike_of_sameCourse {τ : Type} {tasks : Tasks σ}
    {tasks' : Tasks τ} {host : Host σ} {host' : Host τ} (d : FunctionDef)
    {calls : Callables σ} {calls' : Callables τ} (globals : Bindings Value)
    (target : Value) (arguments : List Value)
    (h : (Drive.linesWith tasks host calls none d.body).SameCourse
      (Drive.linesWith tasks' host' calls' none d.body)) :
    Act.Alike (d.runWith tasks host calls globals target arguments)
      (d.runWith tasks' host' calls' globals target arguments) := by
  intro w w'
  rw [exec_runWith, exec_runWith]
  obtain ⟨hvalue, hleft⟩ := h (.start target (d.locals globals arguments)) w w'
  rcases hx : (Drive.linesWith tasks host calls none d.body).exec
      (.start target (d.locals globals arguments)) w with ⟨_ | _, q, v⟩ <;>
    rcases hy : (Drive.linesWith tasks' host' calls' none d.body).exec
      (.start target (d.locals globals arguments)) w' with ⟨_ | _, q', v'⟩ <;>
    rw [hx, hy] at hvalue hleft
  · rfl
  · cases hvalue
  · cases hvalue
  · exact congrArg (fun q : Progress => some q.machine.arena.output) hleft

section Runs

variable {host : Host σ} {globals : Bindings Value} {input : Value}
    {w w' : World σ}

/-- **Calls on schedule come to what they come to from left to right**, however
deep they nest. The calls in a body have their own lines, and these their own
moments on the schedule. The induction over the nesting of calls is the one
that all relations share (`Program.callWith_related`). -/
theorem Program.alike_callWith (hh : host.Steady) (p : Program) (s : Schedule σ)
    (globals : Bindings Value) (allowance : Nat) :
    Callables.Related (fun x (y : Act σ _) => Act.Alike x y)
      ⟨p.isNullary, p.callWith s.tasks host.timed globals allowance⟩
      ⟨p.isNullary, p.call host globals allowance⟩ :=
  p.callWith_related Act.alike_closed (Drive.sameCourse_coupled host.timed host)
    s.alike_tasks hh.alike_timed (fun _ _ _ => ⟨rfl, rfl⟩)
    (fun d _ _ globals target arguments => d.alike_of_sameCourse globals target
      arguments)
    (fun _ _ _ _ _ _ _ _ _ => ⟨rfl, rfl⟩) globals allowance

/-- The lines of a program, on schedule. -/
def Program.linesIn (p : Program) (s : Schedule σ) (host : Host σ)
    (globals : Bindings Value) (token : Option Nat) : Drive (Timed σ) Ending :=
  Drive.linesWith s.tasks host.timed
    (p.callablesWith s.tasks host.timed globals) token p.steps

/-- **Lines on schedule take the course that they take from left to right.**
They come to their end alike or fail alike, with the same branches, at the same
line; which error it is is not said. -/
theorem Program.sameCourse_linesIn (hh : host.Steady) (p : Program)
    (s : Schedule σ) (globals : Bindings Value) :
    (p.linesIn s host globals none).SameCourse
      (Drive.lines host (p.callables host globals) none p.steps) :=
  Drive.linesWith_related Act.alike_closed
    (Drive.sameCourse_coupled host.timed host) s.alike_tasks
    (p.alike_callWith hh s globals callLimit)
    (fun _ _ _ => ⟨rfl, rfl⟩) fun _ _ _ _ _ _ _ => ⟨rfl, rfl⟩

/-! ## Runs

A run on schedule begins with the count of its moments at zero, and forgets it
when it ends. What is left is a run of lines from the root. -/

/-- A run on schedule, as the lines that it goes through and what is read off
from their end. -/
theorem Program.run_runIn (p : Program) (s : Schedule σ) (host : Host σ)
    (globals : Bindings Value) (input : Value) (w : World σ) :
    (p.runIn s host globals input).run w =
      let (r, q, v) := (p.linesIn s host globals (some (w.generation + 1))).exec
        (.start input globals) w.timed.begin
      (RunResult.of? r q, v.untimed) := rfl

/-- **A run on schedule has a result** if no other run begins, and it is read
off from what its lines leave without a token. The token is taken out first, by
`exec_linesWith_of_fresh`, since two runs cannot be compared line by line while
one of them may end at a look. -/
theorem Program.exists_of_runIn_fresh (p : Program) (s : Schedule σ)
    (hfresh : ((p.runIn s host globals input).run w).2.generation
      = w.generation + 1)
    {ending : Except RunError Ending} {q : Progress} {v : World (Timed σ)}
    (h : (p.linesIn s host globals none).exec (.start input globals)
      w.timed.begin
      = (ending, q, v)) :
    ∃ r, ((p.runIn s host globals input).run w).1 = some r ∧
      r.output = q.machine.arena.output ∧ r.lastLine = q.lastLine ∧
        r.isComplete = ending.toOption.isSome := by
  have hnone : (p.linesIn s host globals (some (w.generation + 1))).exec
      (.start input globals) w.timed.begin
        = (p.linesIn s host globals none).exec (.start input globals)
        w.timed.begin := by
    unfold linesIn
    exact Drive.exec_linesWith_of_fresh hfresh
  have hends :
      ((p.linesIn s host globals none).exec (.start input globals)
        w.timed.begin).1
      ≠ .ok .superseded :=
    Drive.exec_linesWith_none_ne_superseded s.tasks p.steps _ _
  rw [run_runIn, hnone, h]
  rw [h] at hends
  rcases ending with e | _ | _
  · exact ⟨_, rfl, rfl, rfl, rfl⟩
  · exact ⟨_, rfl, rfl, rfl, rfl⟩
  · exact absurd rfl hends

/-- **The order in which tasks are done is not to be seen in a run**, but for
the error. With a steady host, and if no other run begins: on any two
schedules, and in whatever worlds, a program hands back the same, comes to its
end in both or fails in both, and has reached the same line. -/
theorem Program.run_in_any_order (hh : host.Steady) (p : Program)
    (s s' : Schedule σ)
    (hfresh : ((p.runIn s host globals input).run w).2.generation
      = w.generation + 1)
    (hfresh' : ((p.runIn s' host globals input).run w').2.generation
      = w'.generation + 1) :
    ∃ r r', ((p.runIn s host globals input).run w).1 = some r ∧
      ((p.runIn s' host globals input).run w').1 = some r' ∧
      r'.output = r.output ∧ r'.lastLine = r.lastLine ∧
      r'.isComplete = r.isComplete := by
  have : Inhabited (World σ) := ⟨w⟩
  have hcourse := (p.sameCourse_linesIn hh s globals).trans_symm
    (p.sameCourse_linesIn hh s' globals)
    (.start input globals) w.timed.begin w'.timed.begin
  rcases h : (p.linesIn s host globals none).exec (.start input globals)
      w.timed.begin with
    ⟨ending, q, v⟩
  rcases h' : (p.linesIn s' host globals none).exec (.start input globals)
      w'.timed.begin with
    ⟨ending', q', v'⟩
  rw [h, h'] at hcourse
  obtain ⟨hvalue, rfl⟩ : ending.toOption = ending'.toOption ∧ q = q' := hcourse
  obtain ⟨r, hr, houtput, hline, hcomplete⟩ :=
    p.exists_of_runIn_fresh s hfresh h
  obtain ⟨r', hr', houtput', hline', hcomplete'⟩ :=
    p.exists_of_runIn_fresh s' hfresh' h'
  refine ⟨r, r', hr, hr', houtput'.trans houtput.symm,
    hline'.trans hline.symm, ?_⟩
  rw [hcomplete, hcomplete', hvalue]

end Runs

/-! ## From left to right

The schedule that does the tasks from left to right lets nothing happen between
them. A run on it is the run, moment by moment: the two answer alike and leave
worlds that differ in the count of the moments alone. This holds of every host,
whatever its answers depend on. -/

/-- **Two acts that do the same**, one of them counting its moments. The errors
are the same here, and so is what happens to the world, so this is more than
being alike, and it is asked of one schedule only. -/
def Act.UpToMoments (x : Act (Timed σ) α) (y : Act σ α) : Prop :=
  ∀ w, (x.exec w).1 = (y.exec w.untimed).1 ∧
    (x.exec w).2.untimed = (y.exec w.untimed).2

/-- Acts that do the same can be sequenced. -/
theorem Act.upToMoments_closed :
    Closed fun (x : Act (Timed σ) _) (y : Act σ _) => UpToMoments x y where
  pure _ _ := ⟨rfl, rfl⟩
  throw _ _ _ := ⟨rfl, rfl⟩
  bind {_ _ x y f g} hxy hfg w := by
    obtain ⟨hvalue, hworld⟩ := hxy w
    rw [exec_bind, exec_bind]
    rcases hx : x.exec w with ⟨r, v⟩
    rcases hy : y.exec w.untimed with ⟨r', v'⟩
    rw [hx, hy] at hvalue hworld
    obtain rfl : r = r' := hvalue
    obtain rfl : v.untimed = v' := hworld
    cases r with
    | error e => exact ⟨rfl, rfl⟩
    | ok a => exact hfg a v

/-- **Two drives that do the same**, one of them counting its moments. The
progress is the same, down to the branches. -/
def Drive.UpToMoments (d : Drive (Timed σ) α) (d' : Drive σ α) : Prop :=
  ∀ p w, (d.exec p w).1 = (d'.exec p w.untimed).1 ∧
    (d.exec p w).2.1 = (d'.exec p w.untimed).2.1 ∧
    (d.exec p w).2.2.untimed = (d'.exec p w.untimed).2.2

/-- So can drives, and a pause of the host that is asked in moments is a pause
of the host. -/
theorem Drive.upToMoments_coupled (host : Host σ) :
    Coupled (fun (x : Act (Timed σ) _) (y : Act σ _) => Act.UpToMoments x y)
      (fun (d : Drive (Timed σ) _) (d' : Drive σ _) => UpToMoments d d')
      host.timed host where
  pure _ _ _ := ⟨rfl, rfl, rfl⟩
  bind {_ _ d d' f f'} hd hf p w := by
    obtain ⟨hvalue, hleft, hworld⟩ := hd p w
    rw [exec_bind, exec_bind]
    rcases hx : d.exec p w with ⟨r, q, v⟩
    rcases hy : d'.exec p w.untimed with ⟨r', q', v'⟩
    rw [hx, hy] at hvalue hleft hworld
    obtain rfl : r = r' := hvalue
    obtain rfl : q = q' := hleft
    obtain rfl : v.untimed = v' := hworld
    cases r with
    | error e => exact ⟨rfl, rfl, rfl⟩
    | ok a => exact hf a q v
  machine _ _ := ⟨rfl, rfl, rfl⟩
  become _ _ _ := ⟨rfl, rfl, rfl⟩
  arrive _ _ _ := ⟨rfl, rfl, rfl⟩
  pause _ _ := ⟨rfl, rfl, rfl⟩
  perform hxy p w := ⟨(hxy w).1, rfl, (hxy w).2⟩
  blame {_ d d'} line h p w := by
    obtain ⟨hvalue, hleft, hworld⟩ := h p w
    rw [exec_blame, exec_blame]
    rcases hx : d.exec p w with ⟨r, q, v⟩
    rcases hy : d'.exec p w.untimed with ⟨r', q', v'⟩
    rw [hx, hy] at hvalue hleft hworld
    obtain rfl : r = r' := hvalue
    obtain rfl : q = q' := hleft
    obtain rfl : v.untimed = v' := hworld
    cases r <;> exact ⟨rfl, rfl, rfl⟩

/-- What is made of the elements of a list, with the place of each. -/
theorem Act.exec_mapM_of_place {f : α → Act σ β} {g : α → Act σ (Nat × β)}
    {place : α → Nat} (h : ∀ a, g a = (do let b ← f a; return (place a, b)))
    (l : List α) (w : World σ) :
    (l.mapM g).exec w =
      match (l.mapM f).exec w with
      | (.ok bs, v) => (.ok ((l.map place).zip bs), v)
      | (.error e, v) => (.error e, v) := by
  induction l generalizing w with
  | nil => rfl
  | cons a l ih =>
    simp only [List.mapM_cons, h, exec_bind, exec_pure, ih]
    rcases (f a).exec w with ⟨_ | b, v⟩
    · rfl
    · dsimp only
      rcases (l.mapM f).exec v with ⟨_ | bs, v'⟩ <;> rfl


/-- What a line does on a leaf, with the place of the leaf. -/
def Arena.outcomeAt (a : Arena) (calls : Callables σ) (action : Action)
    (leaf : Nat × Nat) :
    Act σ (Nat × Outcome) := do
  let outcome ← a.outcome calls action leaf.1
  return (leaf.2, outcome)

/-- Outcomes that have come in order, each with the place of its leaf, are
those of the line. -/
theorem Arena.exec_outcomes (a : Arena) (d : Callables σ) (action : Action)
    (w : World σ) :
    (a.leaves.zipIdx.mapM (a.outcomeAt d action) >>= fun arrived =>
      pure ((List.range a.leaves.length).filterMap fun place =>
        arrived.lookup place)).exec w
        = (a.outcomes d action).exec w := by
  have hleaves := List.mapM_map (f := Prod.fst) (g := a.outcome d action)
    (l := a.leaves.zipIdx)
  rw [List.zipIdx_map_fst] at hleaves
  change a.outcomes d action = a.leaves.zipIdx.mapM fun x =>
    a.outcome d action x.1 at hleaves
  have hplaced : ∀ x, a.outcomeAt d action x
      = (do let outcome ← a.outcome d action x.1; return (x.2, outcome)) :=
      fun _ => rfl
  rw [Act.exec_bind, Act.exec_mapM_of_place hplaced, ← hleaves]
  rcases h : (a.outcomes d action).exec w with ⟨_ | bs, v⟩
  · rfl
  · have hlength : bs.length = a.leaves.length := Act.length_of_mapM h
    rw [List.zipIdx_map_snd, ← List.range_eq_range', ← hlength]
    exact congrArg (fun l => (Except.ok l, v))
      (filterMap_lookup_zip bs { stream := .empty })

/-- **From left to right the tasks of a line on schedule are those of the
line.** Nothing happens between the tasks on this schedule, and the first that
fails is the leftmost that does. -/
theorem Schedule.upToMoments_tasks :
    Tasks.Related (fun x (y : Act σ _) => Act.UpToMoments x y)
      (leftToRight σ).tasks Arena.outcomes := by
  intro c d hc a action w
  have hR := Act.upToMoments_closed (σ := σ)
  -- The leaves are gone through with their places, on either side.
  have htask : ∀ x ∈ a.leaves.zipIdx,
      Act.UpToMoments ((leftToRight σ).task a c action x.2)
      (a.outcomeAt d action x) := by
    intro x hx v
    have hleaf : a.leaves[x.2]? = some x.1 := List.mem_zipIdx_iff_getElem?.1 hx
    unfold task Arena.taskAt
    rw [exec_turn_bind, hleaf]
    exact hR.bind (a.outcome_related hR hc action x.1)
      (fun outcome => hR.pure _) ((leftToRight σ).turn.exec v).2
  have horder :
      (List.range a.leaves.length).mapM ((leftToRight σ).task a c action)
      = a.leaves.zipIdx.mapM fun x => (leftToRight σ).task a c action x.2 := by
    rw [List.range_eq_range', ← List.zipIdx_map_snd 0 a.leaves, List.mapM_map]
    rfl
  have htasks :=
    hR.bind (hR.ordinarily.mapM a.leaves.zipIdx htask)
      (fun arrived =>
        hR.pure ((List.range a.leaves.length).filterMap fun place =>
          arrived.lookup place)) ((leftToRight σ).turn.exec w).2
  rw [a.exec_outcomes d action, ← horder] at htasks
  unfold tasks
  rw [exec_turn_bind]
  exact htasks

/-- A body that does the same does the same as a call. -/
theorem FunctionDef.upToMoments_run {tasks : Tasks (Timed σ)} {host : Host σ}
    (d : FunctionDef) {calls : Callables (Timed σ)} {calls' : Callables σ}
    (globals : Bindings Value) (target : Value) (arguments : List Value)
    (h : (Drive.linesWith tasks host.timed calls none d.body).UpToMoments
      (Drive.lines host calls' none d.body)) :
    Act.UpToMoments (d.runWith tasks host.timed calls globals target arguments)
      (d.run host calls' globals target arguments) := by
  intro w
  rw [exec_runWith, exec_run]
  obtain ⟨hvalue, hleft, hworld⟩ :=
    h (.start target (d.locals globals arguments)) w
  rcases hx : (Drive.linesWith tasks host.timed calls none d.body).exec
    (.start target (d.locals globals arguments)) w with ⟨r, q, v⟩
  rcases hy : (Drive.lines host calls' none d.body).exec
    (.start target (d.locals globals arguments)) w.untimed with ⟨r', q', v'⟩
  rw [hx, hy] at hvalue hleft hworld
  obtain rfl : r = r' := hvalue
  obtain rfl : q = q' := hleft
  obtain rfl : v.untimed = v' := hworld
  cases r <;> exact ⟨rfl, rfl⟩

/-- A host that is asked in moments is the host. -/
theorem Host.upToMoments_timed (host : Host σ) :
    host.timed.Related (fun x (y : Act σ _) => Act.UpToMoments x y) host :=
  ⟨fun _ _ _ => ⟨rfl, rfl⟩, fun _ => ⟨rfl, rfl⟩, fun _ _ => ⟨rfl, rfl⟩⟩

/-- **A run with its tasks from left to right is the run**, whatever the host.
So everything that is proved of `Program.run` is a statement about one of the
orders in which a run may go. -/
theorem Program.runIn_leftToRight (p : Program) (host : Host σ)
    (globals : Bindings Value) (input : Value) :
    p.runIn (.leftToRight σ) host globals input = p.run host globals input := by
  have hR := Act.upToMoments_closed (σ := σ)
  have hS := Drive.upToMoments_coupled host
  have hlook : ∀ token, (Drive.isSuperseded host.timed token).UpToMoments
      (Drive.isSuperseded host token) := fun _ _ _ => ⟨rfl, rfl, rfl⟩
  have hsuits :
      ∀ s, Drive.Suits (fun d (d' : Drive σ _) => d.UpToMoments d') s :=
    fun _ _ _ _ _ => ⟨rfl, rfl, rfl⟩
  have hcalls :=
    p.callWith_related hR hS Schedule.upToMoments_tasks host.upToMoments_timed
    (hlook none)
    (fun d _ _ globals target arguments => d.upToMoments_run globals target
      arguments) (fun _ _ s _ => hsuits s) globals callLimit
  funext w
  have hlines := Drive.linesWith_related hR hS Schedule.upToMoments_tasks hcalls
    (hlook (some (w.generation + 1))) (fun s (_ : s ∈ p.steps) => hsuits s)
    (.start input globals) w.timed.begin
  obtain ⟨hending, hleft, hworld⟩ := hlines
  exact Prod.ext (congrArg₂ RunResult.of? hending hleft) hworld

end StreamScript
