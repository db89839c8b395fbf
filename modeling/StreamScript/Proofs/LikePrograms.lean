import StreamScript.Proofs.Equivalence
import StreamScript.Proofs.LikeRuns
import StreamScript.Proofs.Renumbering

/-!
# Programs that come to the same

A program is rewritten by changing some of its lines, in the script itself and
in the bodies of its functions. Whether the runs of the two programs come to
the same output is a question about these lists of lines alone, each executed
from a root of its own and with one and the same calls (`Drive.LeaveAlike`).
For if all bodies leave the same, so do calls, by induction on how deep they
may nest (`Program.Like.alike_call`), and then the lines of the script
(`Program.Like.completesWith_iff`).

The numbers of lines are in the way when scripts are compared, since a line
that is put in moves all that are behind it. They are of no matter to the
output, so a script may be read without them
(`Program.completesWith_iff_of_said`).
-/

namespace StreamScript

variable {σ : Type} {host : Host σ} {calls calls' : Callables σ} {w : World σ}

namespace Drive

/-- A steady drive has the result that it has when it is executed. -/
theorem Steady.result_of_exec {α : Type} {d : Drive σ α} (hd : d.Steady)
    {p q : Progress} {w v : World σ} {a : α} (h : d.exec p w = (.ok a, q, v))
    (u : World σ) :
    d.result u p.machine = .ok (a, q.machine) := by
  have houtcome := hd { machine := p.machine } p u w rfl
  have hexec : d.outcome p w = (.ok a, q.machine) := by
    unfold outcome
    rw [h]
  unfold result
  rw [houtcome, hexec]

/-- Without a token lines are gone through to their end. -/
theorem lines_result_eq_done (hc : calls.Steady) {l : List (Placed Step)}
    {m m' : Machine} {e : Ending}
    (h : (lines host calls none l).result w m = .ok (e, m')) : e = .done := by
  induction l generalizing m with
  | nil => exact (lines_result_nil.1 h).1
  | cons x l ih =>
    cases hx : x.content.isBlank with
    | true =>
      rw [lines_blank hx] at h
      exact ih h
    | false =>
      obtain ⟨exits, m₁, -, hrest⟩ := (lines_result_cons hc hx l).1 h
      cases exits with
      | true => exact hrest.1
      | false => exact ih hrest

/-- **Lines that leave the same in the root**, whatever it held and whatever
they can call. Functions are parameters here, and all that is known of them is
that they answer the same in any world. -/
def LeaveAlike (host : Host σ) (l l' : List (Placed Step)) : Prop :=
  ∀ ⦃calls : Callables σ⦄, calls.Steady →
    ∀ (input : Value) (locals : Bindings Value) (w : World σ) (v : Value),
    (∃ e m',
        (lines host calls none l).result w (Progress.start input locals).machine
        = .ok (e, m') ∧ m'.arena.output = v) ↔
      ∃ e m', (lines host calls none l').result w
        (Progress.start input locals).machine
        = .ok (e, m') ∧ m'.arena.output = v

theorem LeaveAlike.refl (host : Host σ) (l : List (Placed Step)) :
    LeaveAlike host l l :=
  fun _ _ _ _ _ _ => Iff.rfl

end Drive

/-! ## Functions

A function is known to its callers by its name and its parameters, and by what
its body leaves in the root. Two functions that agree in this are alike, and
their calls come to the same if the calls in their bodies do. -/

/-- **Two functions that come to the same**: they are called alike, and their
bodies leave the same. The bodies are compared as lines that can call anything,
so it does not matter yet what the functions called in them are. -/
structure FunctionDef.Like (host : Host σ) (d d' : FunctionDef) : Prop where
  name_eq : d'.name = d.name
  params_eq : d'.params = d.params
  body : Drive.LeaveAlike host d.body d'.body

namespace FunctionDef

variable {d d' : FunctionDef}

theorem Like.refl (host : Host σ) (d : FunctionDef) : d.Like host d :=
  ⟨rfl, rfl, .refl host d.body⟩

/-- **Their calls come to the same**, if the calls in them do. The parameters
are bound alike, and then the bodies leave the same for whatever they are bound
to. -/
theorem Like.alike_run (h : d.Like host d') (hc' : calls'.Steady)
    (hcalls : Callables.Related (fun x y => Act.Alike x y) calls calls')
    (globals : Bindings Value) (target : Value) (arguments : List Value) :
    Act.Alike (d.run host calls globals target arguments)
      (d'.run host calls' globals target arguments) := by
  have hlocals : d'.locals globals arguments = d.locals globals arguments := by
    unfold locals
    rw [h.params_eq]
  refine Act.Alike.of_value
    (steady_run (Drive.steady_lines hc' host d'.body) _ _ _) fun w v => ?_
  rw [value_run_eq_ok_iff, value_run_eq_ok_iff, hlocals, ← h.body hc']
  -- First the calls are exchanged, and then the body.
  have hlines := Drive.alike_lines hcalls host d.body
  exact exists_congr fun e => exists_congr fun m' => and_congr_left fun _ =>
    hlines.result_eq_ok_iff w w

end FunctionDef

/-- The first that fits is found in both of two lists that are related. -/
theorem forall₂_find? {α β : Type} {R : α → β → Prop} {f : α → Bool}
    {g : β → Bool} {l : List α} {l' : List β} (h : List.Forall₂ R l l')
    (hfg : ∀ a b, R a b → f a = g b) :
    Option.Rel R (l.find? f) (l'.find? g) := by
  induction h with
  | nil => exact .none
  | @cons a b l l' hab _ ih =>
    rw [List.find?_cons, List.find?_cons, hfg a b hab]
    cases g b with
    | true => exact .some hab
    | false => exact ih

/-! ## Programs

All bodies leave the same, whatever they can call. So calls that may nest no
further are alike, calls that may nest once more are alike because those are,
and the lines of the script are alike because all calls are. Outputs are the
same on both sides, but nothing is said of errors, which may be others. -/

/-- **Two programs that come to the same**, list by list. What a name is bound
to in a program depends on the order of its functions; so the lists are
compared place by place. -/
structure Program.Like (host : Host σ) (p p' : Program) : Prop where
  functions : List.Forall₂ (FunctionDef.Like host) p.functions p'.functions
  steps : Drive.LeaveAlike host p.steps p'.steps

namespace Program

variable {p p' : Program} {globals : Bindings Value} {input : Value}

/-- **A run comes to its end**, with this output. A run that another one
supersedes hands back nothing, and then there is no such value. -/
def CompletesWith (p : Program) (host : Host σ) (globals : Bindings Value)
    (input : Value) (w : World σ) (v : Value) : Prop :=
  ∃ r, ((p.run host globals input).run w).1 = some r ∧ r.isComplete = true ∧
    r.output = v

/-- **A run fails.** Nothing is said about the error, nor about what the run
hands back. -/
def Fails (p : Program) (host : Host σ) (globals : Bindings Value)
    (input : Value) (w : World σ) : Prop :=
  ∃ r, ((p.run host globals input).run w).1 = some r ∧ r.isComplete = false

/-- If no other run begins, a run comes to its end or it fails. There is a
result in any case, since only being superseded leaves none. -/
theorem completes_or_fails (hh : host.Steady)
    (hfresh : ((p.run host globals input).run w).2.generation
      = w.generation + 1) :
    (∃ v, p.CompletesWith host globals input w v) ∨
    p.Fails host globals input w := by
  unfold CompletesWith Fails
  have hsteady := p.steady_callables hh globals
  unfold run at hfresh ⊢
  rw [run_runLines] at hfresh ⊢
  have hnone := Drive.exec_lines_of_fresh hfresh
  rcases hexec :
    (Drive.lines host (p.callables host globals) (some (w.generation + 1))
      p.steps).exec (.start input globals) w.begin with ⟨e | _ | _, q, u⟩
  · exact .inr ⟨_, rfl, rfl⟩
  · exact .inl ⟨_, _, rfl, rfl, rfl⟩
  · -- Without a token lines do not end so, and it has made no difference.
    rw [hexec] at hnone
    have hlines :=
      (Drive.steady_lines hsteady host p.steps).result_of_exec hnone.symm w
    cases Drive.lines_result_eq_done hsteady hlines

/-- **Two runs that complete alike**: both come to the same output, or both
fail. It is enough to know with which outputs they come to their ends. If there
is none for the one there is none for the other, and a run that is not
superseded and does not come to its end has failed. -/
theorem complete_or_fail_alike (hh : host.Steady) {w' : World σ}
    (hfresh : ((p.run host globals input).run w).2.generation
      = w.generation + 1)
    (hfresh' : ((p'.run host globals input).run w').2.generation
      = w'.generation + 1)
    (h : ∀ v, p.CompletesWith host globals input w v ↔
      p'.CompletesWith host globals input w' v) :
    (∃ v, p.CompletesWith host globals input w v ∧
      p'.CompletesWith host globals input w' v) ∨
      (p.Fails host globals input w ∧ p'.Fails host globals input w') := by
  obtain ⟨v, hv⟩ | hfails := completes_or_fails hh hfresh
  · exact .inl ⟨v, hv, (h v).1 hv⟩
  obtain ⟨v, hv⟩ | hfails' := completes_or_fails hh hfresh'
  · exact .inl ⟨v, (h v).2 hv, hv⟩
  · exact .inr ⟨hfails, hfails'⟩

namespace Like

/-- A name finds functions that come to the same, or none in both. -/
theorem cases_function? (h : p.Like host p') (name : String) :
    (p.function? name = none ∧ p'.function? name = none) ∨
      ∃ d d', p.function? name = some d ∧ p'.function? name = some d' ∧
        d.Like host d' := by
  have hfound : Option.Rel (FunctionDef.Like host) (p.function? name)
      (p'.function? name) := by
    refine forall₂_find? (List.forall₂_reverse_iff.2 h.functions)
      fun d d' hd => ?_
    rw [hd.name_eq]
  generalize p.function? name = found at hfound ⊢
  generalize p'.function? name = found' at hfound ⊢
  cases hfound with
  | none => exact .inl ⟨rfl, rfl⟩
  | some hd => exact .inr ⟨_, _, rfl, rfl, hd⟩

theorem isNullary_eq (h : p.Like host p') (name : String) :
    p.isNullary name = p'.isNullary name := by
  unfold isNullary
  obtain ⟨hname, hname'⟩ | ⟨d, d', hname, hname', -⟩ := h.cases_function? name
  · rw [hname, hname']
  · rw [hname, hname']
    rfl

/-- **Calls come to the same**, however deep they nest. The induction is on how
often they may still nest. At each level a call finds functions that are alike,
or the same built-in one, or none in both. -/
theorem alike_call (h : p.Like host p') (hh : host.Steady)
    (globals : Bindings Value) (allowance : Nat) :
    Callables.Related (fun x y => Act.Alike x y)
      ⟨p.isNullary, p.call host globals allowance⟩
      ⟨p'.isNullary, p'.call host globals allowance⟩ := by
  have hR := Act.alike_closed (σ := σ) (τ := σ)
  have hsteady := p.steady_call hh globals
  induction allowance with
  | zero =>
    refine ⟨h.isNullary_eq, fun name target arguments => ?_⟩
    obtain ⟨hname, hname'⟩ | ⟨d, d', hname, hname', hd⟩ :=
      h.cases_function? name
    · have hbuiltin := ((hsteady 0).call name target arguments).alike
      dsimp only at hbuiltin ⊢
      rw [call_of_none hname] at hbuiltin ⊢
      rwa [call_of_none hname']
    · dsimp only
      rw [call_zero_of_some hname, call_zero_of_some hname', hd.name_eq,
        hd.params_eq]
      exact hR.bind (hR.lift (ordinary_checkArity _ _ _ _).fits) fun _ =>
        hR.throw _ rfl
  | succ allowance ih =>
    refine ⟨h.isNullary_eq, fun name target arguments => ?_⟩
    obtain ⟨hname, hname'⟩ | ⟨d, d', hname, hname', hd⟩ :=
      h.cases_function? name
    · have hbuiltin :=
        ((hsteady (allowance + 1)).call name target arguments).alike
      dsimp only at hbuiltin ⊢
      rw [call_of_none hname] at hbuiltin ⊢
      rwa [call_of_none hname']
    · dsimp only
      rw [call_succ_of_some hname, call_succ_of_some hname', hd.params_eq]
      exact hR.bind (hR.lift (ordinary_checkArity _ _ _ _).fits) fun _ =>
        hd.alike_run (p'.steady_call hh globals allowance) ih globals target
          arguments

/-- **Their runs come to the same output**, if no other run begins: one is
complete if and only if the other is. By induction on the allowance calls of
functions that come to the same are alike, and then so are the lines of the
programs with these calls. -/
theorem completesWith_iff (h : p.Like host p') (hh : host.Steady)
    {w w' : World σ} (hfresh : ((p.run host globals input).run w).2.generation
      = w.generation + 1)
    (hfresh' : ((p'.run host globals input).run w').2.generation
      = w'.generation + 1)
    (v : Value) :
    p.CompletesWith host globals input w v ↔
    p'.CompletesWith host globals input w' v := by
  have hsteady := p'.steady_callables hh globals
  have halike :=
    Drive.alike_lines (h.alike_call hh globals callLimit) host p.steps
  have hdone : ∀ {q : Program} {w : World σ},
      (q.callables host globals).Steady →
      ((∃ m', (Drive.lines host (q.callables host globals) none q.steps).result w
          (Progress.start input globals).machine = .ok (.done, m') ∧
          m'.arena.output = v) ↔
        ∃ e m',
          (Drive.lines host (q.callables host globals) none q.steps).result w
          (Progress.start input globals).machine = .ok (e, m') ∧
          m'.arena.output = v) := by
    intro q w hq
    constructor
    · rintro ⟨m', hlines, hv⟩
      exact ⟨.done, m', hlines, hv⟩
    · rintro ⟨e, m', hlines, hv⟩
      obtain rfl := Drive.lines_result_eq_done hq hlines
      exact ⟨m', hlines, hv⟩
  unfold CompletesWith
  rw [run_eq_some_iff hfresh, run_eq_some_iff hfresh',
    hdone (p.steady_callables hh globals), hdone hsteady, ← h.steps hsteady]
  exact exists_congr fun e => exists_congr fun m' => and_congr_left fun _ =>
    halike.result_eq_ok_iff w.begin w'.begin

end Like

/-! ## Scripts without numbers

What a script says is a list of indentations with tokens. As lines with the
number zero it can be read as a script again, and this is the program whose
runs stand for those of the script. That numbers do not matter has been shown
for any numbers that keep zero, and here all of them become zero. -/

/-- **A run of a program that says the same elsewhere** comes to the same
output. Renumbering changes neither the output nor whether a run is complete.
-/
theorem completesWith_iff_of_spoken {f ρ : Nat → Nat} (hρ : ρ 0 = 0)
    (h : p'.spoken = p.spoken.map (Placed.moved f ρ (Item.moved f ρ)))
    (v : Value) :
    p'.CompletesWith host globals input w v ↔
    p.CompletesWith host globals input w v := by
  have hcomplete := RunResult.isComplete_renumbered ρ
  unfold CompletesWith
  rw [run_of_spoken hρ h host globals input w]
  constructor
  · rintro ⟨_, hmap, hr⟩
    obtain ⟨r, hrun, rfl⟩ := Option.map_eq_some_iff.1 hmap
    exact ⟨r, hrun, (hcomplete r).symm.trans hr.1, hr.2⟩
  · rintro ⟨r, hrun, hr⟩
    exact ⟨r.renumbered ρ, congrArg (Option.map _) hrun,
      (hcomplete r).trans hr.1, hr.2⟩

end Program

/-- What the lines of a script say, with the indentation of each: empty lines
are left out, and so are the numbers. -/
def saidLines (lines : List NumberedLine) : List (Nat × List Token) :=
  (spokenLines lines).map fun l => (l.2.tabDepth, l.2.tokens)

/-- What a line says, as a line again. -/
def unnumbered (said : Nat × List Token) : NumberedLine :=
  (0, ⟨said.1, said.2, ""⟩)

namespace Program

variable {lines lines' : List NumberedLine}

/-- **The program of lines that have no numbers.** What a script says is its
lines without the empty ones, each with its indentation. Scripts that are
compared line by line are compared in this form. -/
def ofSaid (said : List (Nat × List Token)) : Program :=
  ⟨readItems {} (said.map unnumbered)⟩

/-- **It is what the script says**, but for the numbers. All numbers are taken
to 0, since none are given. -/
theorem spoken_ofSaid (lines : List NumberedLine) :
    (ofSaid (saidLines lines)).spoken =
      (mk (readItems {} lines)).spoken.map
        (Placed.moved id (fun _ => 0) (Item.moved id fun _ => 0)) := by
  have hmoved :
      List.Forall₂ (MovesTo Set.univ id fun _ => 0) (spokenLines lines)
      (spokenLines ((saidLines lines).map unnumbered)) := by
    have hsaid : spokenLines ((saidLines lines).map unnumbered) =
        (spokenLines lines).map fun l =>
        unnumbered (l.2.tabDepth, l.2.tokens) := by
      unfold saidLines
      rw [List.map_map]
      refine List.filter_eq_self.2 fun l hl => ?_
      obtain ⟨l', hl', rfl⟩ := List.mem_map.1 hl
      exact (List.mem_filter.1 hl').2
    rw [hsaid, List.forall₂_map_right_iff]
    exact List.forall₂_same.2 fun l _ => ⟨trivial, rfl, rfl, rfl⟩
  exact spokenItems_readItems strictMonoOn_id hmoved

/-- It holds an error if the script does. -/
theorem diagnostic_ofSaid_eq_none_iff (lines : List NumberedLine) :
    (ofSaid (saidLines lines)).diagnostic = none ↔
      (mk (readItems {} lines)).diagnostic = none := by
  rw [diagnostic_of_spoken (spoken_ofSaid lines), Option.map_eq_none_iff]

/-- **Scripts whose lines come to the same** run to the same output. The empty
lines of either script, and the numbers of its lines, have no part in what its
runs come to. So scripts may be compared as what they say. -/
theorem completesWith_iff_of_said
    (h : (ofSaid (saidLines lines)).Like host (ofSaid (saidLines lines')))
    (hh : host.Steady) {w w' : World σ}
    (hfresh :
      (((mk (readItems {} lines)).run host globals input).run w).2.generation
        = w.generation + 1)
    (hfresh' :
      (((mk (readItems {} lines')).run host globals input).run w').2.generation
        = w'.generation + 1) (v : Value) :
    (mk (readItems {} lines)).CompletesWith host globals input w v ↔
      (mk (readItems {} lines')).CompletesWith host globals input w' v := by
  have hworld : ∀ (lines : List NumberedLine) (w : World σ),
      (((ofSaid (saidLines lines)).run host globals input).run w).2 =
        (((mk (readItems {} lines)).run host globals input).run w).2 := by
    intro lines w
    rw [run_of_spoken rfl (spoken_ofSaid lines) host globals input w]
  rw [← completesWith_iff_of_spoken rfl (spoken_ofSaid lines),
    ← completesWith_iff_of_spoken rfl (spoken_ofSaid lines')]
  refine h.completesWith_iff hh ?_ ?_ v
  · rw [hworld, hfresh]
  · rw [hworld, hfresh']

end Program

end StreamScript
