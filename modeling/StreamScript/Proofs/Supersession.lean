import Mathlib
import StreamScript.Proofs.Closure
import StreamScript.Proofs.Reach

/-!
# When a run is superseded

The session counts the runs begun, and a run is out of date once the count has
passed its token. A run does not watch the count, it *looks* at it, and only
at one kind of moment: after a line that it has taken and that has neither
failed nor ended the run. `Drive.Looks` collects the worlds of these moments,
and `Drive.lines_superseded_iff` says that they decide: a run is superseded
exactly if it looks at a world in which the count has moved on.

The count never goes back (`Drive.Ages`), so a look finds out about every run
that has begun before it. What begins after the last look is found out by
nobody, and there is room for that: the lines that end a run are not followed
by a look, and neither is the closing of the scopes at the end. Such a run
hands back its result although a newer one had begun before it did
(`Program.run_eq_none_iff`).

Where the count has not moved at the end of a run, the token made no
difference to it (`Drive.exec_lines_of_fresh`).
-/

namespace StreamScript

variable {σ α : Type} {host : Host σ} {calls : Callables σ}

/-! ## The count only grows

A session counts the runs that have begun, and the host may begin more of them
while it answers or while the run pauses. Nothing takes one back. This is a
property of acts and drives that sequencing keeps, so it holds of every run. -/

/-- **An act that forgets no run.** The number of runs begun never goes down
while it is performed, whatever it comes to; it may go up, since the host may
begin a run whenever it is asked. -/
def Act.Ages (x : Act σ α) : Prop :=
  ∀ w, w.generation ≤ (x.exec w).2.generation

/-- **A drive that forgets no run.** What a drive does between requests, to the
arena and to the scopes, does not touch the count, so it ages the world as the
acts in it do. -/
def Drive.Ages (d : Drive σ α) : Prop :=
  ∀ p w, w.generation ≤ (d.exec p w).2.2.generation

/-- A pause may begin runs, and forgets none. -/
theorem World.generation_le_pause (host : Host σ) (w : World σ) :
    w.generation ≤ (w.pause host).generation :=
  Nat.le_add_right _ _

theorem Act.ages_closed : Closed fun x _ : Act σ _ => Ages x where
  pure _ _ := Nat.le_refl _
  throw _ _ _ := Nat.le_refl _
  bind {_ _ x _ f _} hx hf w := by
    have hw := hx w
    rw [exec_bind]
    rcases h : x.exec w with ⟨_ | a, w'⟩ <;> rw [h] at hw
    · exact hw
    · exact Nat.le_trans hw (hf a w')

theorem Drive.ages_closed : Closed (σ := σ) Act.Ages Ages where
  pure _ _ _ := Nat.le_refl _
  bind {_ _ d f} hd hf p w := by
    have hw := hd p w
    rw [exec_bind]
    rcases h : d.exec p w with ⟨_ | a, q, w'⟩ <;> rw [h] at hw
    · exact hw
    · exact Nat.le_trans hw (hf a q w')
  machine _ _ := Nat.le_refl _
  become _ _ _ := Nat.le_refl _
  arrive _ _ _ := Nat.le_refl _
  pause host _ w := w.generation_le_pause host
  perform hact _ w := hact w
  blame {_ d} line hd p w := by
    have hw := hd p w
    rw [exec_blame]
    rcases h : d.exec p w with ⟨_ | a, q, w'⟩ <;> rw [h] at hw <;> exact hw

theorem Drive.ages_admits (s : Placed Step) : Admits (σ := σ) Ages s :=
  fun _ _ _ _ => Nat.le_refl _

theorem Host.ages_closed (host : Host σ) : host.Closed Act.Ages where
  sideOutput _ _ _ := Nat.le_add_right _ _
  listFiles _ := Nat.le_add_right _ _
  loadFile _ _ := Nat.le_add_right _ _

/-- Calls that forget no run, one by one. -/
abbrev Callables.Age (calls : Callables σ) : Prop :=
  Callables.Related (fun x _ => Act.Ages x) calls calls

/-- To look at the token is to pause first. -/
theorem Drive.ages_isSuperseded (host : Host σ) (token : Option Nat) :
    Ages (isSuperseded host token) :=
  fun _ w => w.generation_le_pause host

/-- The calls of any program with any host forget no run. -/
theorem Program.age_callables (p : Program) (host : Host σ)
    (globals : Bindings Value) :
    (p.callables host globals).Age := by
  refine p.call_closed Act.ages_closed Drive.ages_closed host.ages_closed
    (Drive.ages_isSuperseded host none) ?_ (fun _ _ s _ => Drive.ages_admits s)
    globals callLimit
  intro d calls globals target arguments hlines w
  have hw := hlines (.start target (d.locals globals arguments)) w
  rw [FunctionDef.exec_run]
  generalize Progress.start target (d.locals globals arguments) = start at hw ⊢
  rcases h : (Drive.lines host calls none d.body).exec start
    w with ⟨_ | _, q, w'⟩ <;>
    rw [h] at hw <;> exact hw

/-- **A run of lines forgets no run.** Every move of a run is an act performed
on a leaf or a pause of the host, and both only ever count up. So a run that
has been superseded stays so. -/
theorem Drive.ages_lines (hc : calls.Age) (host : Host σ) (token : Option Nat)
    (l : List (Placed Step)) : Ages (lines host calls token l) :=
  lines_closed Act.ages_closed ages_closed hc host
    (ages_isSuperseded host token) fun s _ =>
    ages_admits s

namespace Drive

/-! ## Looking at the token

The looks of a run depend on how far it comes, and how far it comes depends on
the looks. The circle is cut by asking for the looks of the run without a
token: as long as no look finds the token out of date both go the same way. -/

/-- **The worlds in which a run of lines looks at its token**: one after every
line that it takes and that neither fails nor ends the run. That the run comes
so far is said of the run without a token, which nothing but a failure keeps
from going on. -/
def Looks (host : Host σ) (calls : Callables σ) (l : List (Placed Step))
    (p : Progress) (w v : World σ) : Prop :=
  ∃ s rest q u q' u', Reaches host calls none l p w (s :: rest) q u ∧
    s.content.isBlank = false ∧ (take host calls s).exec q u
    = (.ok false, q', u') ∧
    v = u'.pause host

variable {s : Placed Step} {l : List (Placed Step)} {p : Progress}
    {w v : World σ}

/-- Without lines there is no look. -/
theorem not_looks_nil : ¬Looks host calls [] p w v := by
  rintro ⟨_, _, _, _, _, _, hr, _⟩
  cases hr

/-- An empty line is not looked after. -/
theorem looks_blank_iff (hs : s.content.isBlank = true) :
    Looks host calls (s :: l) p w v ↔ Looks host calls l p w v := by
  constructor
  · rintro ⟨s', rest, q, u, q', u', hr, hs', ht, rfl⟩
    cases hr with
    | here => exact absurd hs (by simp [hs'])
    | blank _ hr => exact ⟨s', rest, q, u, q', u', hr, hs', ht, rfl⟩
    | line hs'' => exact absurd hs (by simp [hs''])
  · rintro ⟨s', rest, q, u, q', u', hr, h⟩
    exact ⟨s', rest, q, u, q', u', .blank hs hr, h⟩

/-- **The looks after a line** are the one that follows it, and those after the
lines that are left. This is the equation by which looks are found, line by
line: a line that fails or exits has none behind it, for `take` has to come to
`false`. -/
theorem looks_line_iff (hs : s.content.isBlank = false) :
    Looks host calls (s :: l) p w v ↔
      ∃ q u, (take host calls s).exec p w = (.ok false, q, u) ∧
        (v = u.pause host ∨ Looks host calls l q (u.pause host) v) := by
  constructor
  · rintro ⟨s', rest, q, u, q', u', hr, hs', ht, rfl⟩
    cases hr with
    | here => exact ⟨q', u', ht, .inl rfl⟩
    | blank hs'' => exact absurd hs'' (by simp [hs])
    | line _ ht₀ _ hr =>
      exact ⟨_, _, ht₀, .inr ⟨s', rest, q, u, q', u', hr, hs', ht, rfl⟩⟩
  · rintro ⟨q, u, ht, rfl | ⟨s', rest, q₁, u₁, q', u', hr, h⟩⟩
    · exact ⟨s, l, p, w, q, u, .here _ _ _, hs, ht, rfl⟩
    · exact ⟨s', rest, q₁, u₁, q', u', .line hs ht rfl hr, h⟩

/-- A closing at the end does not supersede a run. -/
theorem exec_close_ne_superseded (p : Progress) (w : World σ) :
    ((do closeTo host calls 0; return Ending.done : Drive σ Ending).exec p w).1
      ≠ .ok .superseded := by
  rw [exec_close]
  rcases (closeTo host calls 0).exec p w with ⟨_ | _, _, _⟩ <;>
      simp [Except.map]

/-- **The looks decide** whether a run of lines is superseded. Nothing else can
make it so: the token is compared at the looks only, and the first at which it
is not the latest ends the run. -/
theorem lines_superseded_iff (host : Host σ) (calls : Callables σ) (t : Nat)
    (l : List (Placed Step)) (p : Progress) (w : World σ) :
    ((lines host calls (some t) l).exec p w).1 = .ok .superseded ↔
      ∃ v, Looks host calls l p w v ∧ v.generation ≠ t := by
  induction l generalizing p w with
  | nil =>
    refine iff_of_false (exec_close_ne_superseded p w) ?_
    rintro ⟨v, hv, _⟩
    exact not_looks_nil hv
  | cons s l ih =>
    by_cases hs : s.content.isBlank = true
    · rw [lines_blank hs, ih p w]
      simp only [looks_blank_iff hs]
    · replace hs : s.content.isBlank = false := Bool.eq_false_iff.2 hs
      simp only [looks_line_iff hs]
      rw [exec_lines_cons hs]
      obtain ⟨_ | _ | _, q, u⟩ := (take host calls s).exec p w
      · simp
      · -- The look after this line is the first; the others are those of the
        -- rest.
        by_cases hf : isStale (some t) (u.pause host) = true
        · simp only [hf, if_true]
          exact iff_of_true trivial
            ⟨u.pause host, ⟨q, u, rfl, .inl rfl⟩, isStale_some_iff.1 hf⟩
        · have fresh : (u.pause host).generation = t := by
            rwa [isStale_some_iff, Decidable.not_not] at hf
          simp only [hf, Bool.false_eq_true, if_false]
          rw [ih q (u.pause host)]
          constructor
          · rintro ⟨v, hv, hne⟩
            exact ⟨v, ⟨q, u, rfl, .inr hv⟩, hne⟩
          · rintro ⟨v, ⟨_, _, ⟨⟩, rfl | hv⟩, hne⟩
            · exact absurd fresh hne
            · exact ⟨v, hv, hne⟩
      · refine iff_of_false (exec_close_ne_superseded q u) ?_
        rintro ⟨_, ⟨_, _, ⟨⟩, _⟩, _⟩

/-- **A look forgets no run**: what had begun before, is counted in the worlds
looked at. So if the count is the token's at the end of the run, it was so at
every look. -/
theorem Looks.generation_le (hc : calls.Age) (h : Looks host calls l p w v) :
    w.generation ≤ v.generation := by
  induction l generalizing p w with
  | nil => exact absurd h not_looks_nil
  | cons s l ih =>
    by_cases hs : s.content.isBlank = true
    · exact ih ((looks_blank_iff hs).1 h)
    · obtain ⟨q, u, ht, hv⟩ := (looks_line_iff (Bool.eq_false_iff.2 hs)).1 h
      have hu :=
        take_closed Act.ages_closed ages_closed hc host (ages_admits s) p w
      rw [ht] at hu
      have hpause : w.generation ≤ (u.pause host).generation :=
        Nat.le_trans hu (u.generation_le_pause host)
      obtain rfl | hv := hv
      · exact hpause
      · exact Nat.le_trans hpause (ih hv)

/-- A run that is superseded leaves the world in which it has found that out. -/
theorem generation_ne_of_superseded {t : Nat} {q : Progress}
    (h : (lines host calls (some t) l).exec p w = (.ok .superseded, q, v)) :
    v.generation ≠ t := by
  obtain ⟨l', p', w', _, he⟩ := exists_reaches_ends host calls (some t) l p w
  generalize (lines host calls (some t) l).exec p w = o at h he
  cases he with
  | @finished _ _ r _ _ _ => cases r <;> cases h
  | failed _ _ => cases h
  | @exited _ _ _ _ _ _ r _ _ _ _ _ => cases r <;> cases h
  | superseded _ _ hf =>
    cases h
    exact isStale_some_iff.1 hf

/-- **Where no run has begun in the end, the token has made no difference.** No
look can have failed, by `Looks.generation_le`, and without a failed look a run
with a token goes the way of one without. It is stated for any order of the
tasks, since it is used for runs on schedule as well. -/
theorem exec_linesWith_of_fresh {tasks : Tasks σ} {t : Nat}
    (h : ((linesWith tasks host calls (some t) l).exec p w).2.2.generation
      = t) :
    (linesWith tasks host calls (some t) l).exec p w =
      (linesWith tasks host calls none l).exec p w := by
  induction l generalizing p w with
  | nil => rfl
  | cons s l ih =>
    by_cases hs : s.content.isBlank = true
    · rw [linesWith_blank hs] at h ⊢
      rw [linesWith_blank hs, ih h]
    · replace hs : s.content.isBlank = false := Bool.eq_false_iff.2 hs
      rw [exec_linesWith_cons hs] at h ⊢
      rw [exec_linesWith_cons hs]
      rcases ht : (takeWith tasks host calls s).exec p w with ⟨_ | _ | _, q, u⟩
      · rfl
      · simp only [ht] at h ⊢
        by_cases hf : isStale (some t) (u.pause host) = true
        · simp only [hf, if_true] at h
          exact absurd h (isStale_some_iff.1 hf)
        · simp only [hf, Bool.false_eq_true, if_false] at h ⊢
          exact ih h
      · rfl

/-- Without a token lines are gone through to their end, unless one of them
fails. -/
theorem exec_linesWith_none_ne_superseded (tasks : Tasks σ)
    (l : List (Placed Step)) (p : Progress) (w : World σ) :
    ((linesWith tasks host calls none l).exec p w).1 ≠ .ok .superseded := by
  induction l generalizing p w with
  | nil => exact exec_close_ne_superseded p w
  | cons s l ih =>
    by_cases hs : s.content.isBlank = true
    · rw [linesWith_blank hs]
      exact ih p w
    · rw [exec_linesWith_cons (Bool.eq_false_iff.2 hs)]
      rcases (takeWith tasks host calls s).exec p w with ⟨_ | _ | _, q, u⟩
      · exact nofun
      · exact ih q (u.pause host)
      · exact exec_close_ne_superseded q u

/-- The same from left to right. -/
theorem exec_lines_of_fresh {t : Nat}
    (h : ((lines host calls (some t) l).exec p w).2.2.generation = t) :
    (lines host calls (some t) l).exec p w
    = (lines host calls none l).exec p w :=
  exec_linesWith_of_fresh h

end Drive

/-! ## Programs

The token of a run is the number that it gets when it begins. So the run is the
last one as long as the count is the same number, and what has been said about
lines is read at this token. -/

/-- The worlds in which a run of a program looks at its token. -/
def Program.Looks (p : Program) (host : Host σ) (globals : Bindings Value)
    (input : Value) (w v : World σ) : Prop :=
  Drive.Looks host (p.callables host globals) p.steps (.start input globals)
    w.begin v

/-- **When a run has no result.** A run is superseded exactly if another run
had begun when it looked at its token, and then another run has indeed begun
before it ends. What begins after the last look goes unnoticed. So having no
result and having been overtaken by the end are the same thing for a run
exactly if it looks again once it has been overtaken. -/
theorem Program.run_eq_none_iff (p : Program) (host : Host σ)
    (globals : Bindings Value) (input : Value) (w : World σ) :
    let (result, after) := (p.run host globals input).run w
    (result = none ↔
      ∃ v, p.Looks host globals input w v ∧ w.generation + 1 < v.generation) ∧
    (result = none → w.generation + 1 < after.generation) ∧
    ((result = none ↔ w.generation + 1 < after.generation) ↔
      (w.generation + 1 < after.generation →
        ∃ v, p.Looks host globals input w v ∧
          w.generation + 1 < v.generation)) := by
  have hc := p.age_callables host globals
  have decided := Drive.lines_superseded_iff host (p.callables host globals)
    (w.generation + 1) p.steps (.start input globals) w.begin
  have ages := Drive.ages_lines hc host (some (w.generation + 1)) p.steps
    (.start input globals) w.begin
  unfold Program.run Program.Looks
  rw [Program.run_runLines]
  rcases h :
    (Drive.lines host (p.callables host globals) (some (w.generation + 1))
      p.steps).exec (.start input globals) w.begin with ⟨r, q, after⟩
  rw [h] at decided ages
  have none_iff : RunResult.of? r q = none ↔ r = .ok .superseded := by
    rcases r with _ | _ | _ <;> simp [RunResult.of?]
  have looked : RunResult.of? r q = none ↔ ∃ v,
      Drive.Looks host (p.callables host globals) p.steps (.start input globals)
      w.begin v ∧ w.generation + 1 < v.generation := by
    rw [none_iff, decided]
    -- A world that is looked at has counted no fewer runs than the one begun
    -- here.
    refine exists_congr fun v => and_congr_right fun hv => ?_
    have : w.generation + 1 ≤ v.generation := hv.generation_le hc
    omega
  have begun : RunResult.of? r q = none →
      w.generation + 1 < after.generation := by
    intro hnone
    obtain rfl := none_iff.1 hnone
    have hne := Drive.generation_ne_of_superseded h
    have : w.generation + 1 ≤ after.generation := ages
    omega
  refine ⟨looked, begun, fun hiff hafter => looked.1 (hiff.2 hafter),
    fun hnoticed => ?_⟩
  exact ⟨begun, fun hafter => looked.2 (hnoticed hafter)⟩

/-- A host in whose hands another run begins whenever a value is put aside. -/
def bell : Host Unit :=
  { Host.none Unit with sideOutput := fun _ _ s =>
    { answer := .ok (), state := s, begun := 1 } }

/-- A program of one line, which puts its input aside and then fails. -/
def askAndFail : Program :=
  ⟨[{ content := .step (.act (.eval
        (.binary (.call "sideOutput" [.text "stop"]) .add (.name "nope"))))
      tabDepth := 0, depth := 0, line := 1 }]⟩

/-- **A failing line hides a newer run**: the host begins one while the line is
executed, and there is a result all the same. There is no look behind a line
that fails, so the run does not learn that it has been superseded. -/
theorem askAndFail_not_superseded :
    ¬ (((askAndFail.run bell [] (.text "a")).run { host := () }).1 = none ↔
      1 < ((askAndFail.run bell [] (.text "a")).run
        { host := () }).2.generation) := by
  have hresult :
      ((askAndFail.run bell [] (.text "a")).run { host := () }).1.isSome := by
      cbv
  have hafter :
      ((askAndFail.run bell [] (.text "a")).run { host := () }).2.generation
      = 2 := by
    cbv
  rw [hafter]
  intro h
  rw [h.2 (by decide)] at hresult
  exact Bool.false_ne_true hresult

end StreamScript
