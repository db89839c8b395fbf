import Mathlib
import StreamScript.Proofs.LockStep
import StreamScript.Proofs.Scoping

/-!
# Runs and what they mean

What a script means is said by recursion: `Program.byElement` runs the block of
a scope to its end on one element after the other, and so the bodies of
functions wherever they are called. What is executed takes every line on all
branches at once. `Program.run_iff_byElement` says that the two come to the
same output, for every script that reads without an error and whose exits stand
in no scope.

From blocks (`Drive.block_result_iff_each`) to programs there are two more
steps. An exit in no scope ends the lines where it stands, on both sides
(`Drive.lines_result`). And a call of a function runs its body with calls that
have less of the allowance left, so that they come to the same is shown by
induction on the allowance (`Program.alike_call`).
-/

namespace StreamScript

variable {σ : Type} {host : Host σ} {calls : Callables σ} {w : World σ}

namespace Drive

variable {m m' : Machine} {n : Nat} {x : Placed Step}
    {l l' : List (Placed Step)}

/-! ## Lines

The lines of a run are taken until an exit or to the end, and then all scopes
are closed. Up to the first exit they are a block of depth zero. With no newer
run to look for, a run of lines is therefore a block and, behind an exit, lines
that are not looked at. -/

/-- What closing all scopes comes to in the end. -/
theorem close_result {e : Ending} :
    (do closeTo host calls 0; return Ending.done : Drive σ Ending).result w m
      = .ok (e, m') ↔
      e = .done ∧ (closeTo host calls 0).result w m = .ok ((), m') := by
  rw [result_bind_eq_ok_iff fun _ => steady_closed.pure _]
  constructor
  · rintro ⟨_, m₁, hclose, ⟨⟩⟩
    exact ⟨rfl, hclose⟩
  · rintro ⟨rfl, hclose⟩
    exact ⟨(), m', hclose, rfl⟩

/-- With no line left the scopes that are open are closed. -/
theorem lines_result_nil {e : Ending} :
    (lines host calls none []).result w m = .ok (e, m') ↔
      e = .done ∧ (closeTo host calls 0).result w m = .ok ((), m') :=
  close_result

/-- **A line that says something**: it is taken, and unless it ends the run the
others follow. -/
theorem lines_result_cons (hc : calls.Steady) (hx : x.content.isBlank = false)
    (l : List (Placed Step)) {e : Ending} :
    (lines host calls none (x :: l)).result w m = .ok (e, m') ↔
      ∃ exits m₁, (take host calls x).result w m = .ok (exits, m₁) ∧
        if exits then e = .done ∧ (closeTo host calls 0).result w m₁
        = .ok ((), m')
        else (lines host calls none l).result w m₁ = .ok (e, m') := by
  have hclose :
      (do closeTo host calls 0; return Ending.done : Drive σ Ending).Steady :=
    steady_closed.bind
      (closeTo_closed Act.steady_closed steady_closed hc host 0) fun _ =>
      steady_closed.pure _
  have hlook : ∀ stale, (if stale = true then pure Ending.superseded
      else lines host calls none l : Drive σ Ending).Steady := fun stale => by
    split
    · exact steady_closed.pure _
    · exact steady_lines hc host l
  rw [lines_cons, if_neg (by simp [hx]), result_bind_eq_ok_iff]
  · refine exists_congr fun exits => exists_congr fun m₁ =>
      and_congr_right fun _ => ?_
    cases exits with
    | true => exact close_result
    | false =>
      show (isSuperseded host none >>= _).result w m₁ = _ ↔ _
      rw [result_bind hlook]
      exact Iff.rfl
  · intro exits
    cases exits with
    | true => exact hclose
    | false => exact steady_closed.bind (steady_isSuperseded host) hlook

/-- Only an exit ends a run. -/
theorem take_result_exits (hc : calls.Steady) (hx : x.content.isBlank = false)
    (hstays : x.content ≠ .act .exit) {exits : Bool}
    (h : (take host calls x).result w m = .ok (exits, m')) : exits = false := by
  obtain ⟨m₁, -, hstep⟩ := (take_result hc x).1 h
  obtain ⟨line, w', hexec⟩ := result_eq_ok_iff.1 hstep
  exact exits_eq_false_of_step hx hstays hexec

/-- **Lines without an exit are all taken**, whatever comes behind them. -/
theorem lines_result_append (hc : calls.Steady)
    (hl : ∀ x ∈ l, x.content ≠ .act .exit) (l' : List (Placed Step))
    {e : Ending} :
    (lines host calls none (l ++ l')).result w m = .ok (e, m') ↔
      ∃ m₁, (through host calls l).result w m = .ok ((), m₁) ∧
        (lines host calls none l').result w m₁ = .ok (e, m') := by
  induction l generalizing m with
  | nil => exact ⟨fun h => ⟨m, rfl, h⟩, by rintro ⟨_, ⟨⟩, h⟩; exact h⟩
  | cons x l ih =>
    obtain ⟨hstays, hl⟩ := List.forall_mem_cons.1 hl
    cases hx : x.content.isBlank with
    | true => rw [List.cons_append, lines_blank hx, through_blank hx, ih hl]
    | false =>
      rw [List.cons_append, lines_result_cons hc hx]
      simp only [through_result_cons hc hx]
      constructor
      · rintro ⟨exits, m₁, htake, hrest⟩
        obtain rfl : exits = false := take_result_exits hc hx hstays htake
        obtain ⟨m₂, hthrough, hlines⟩ := (ih hl).1 hrest
        exact ⟨m₂, ⟨false, m₁, htake, hthrough⟩, hlines⟩
      · rintro ⟨m₂, ⟨exits, m₁, htake, hthrough⟩, hlines⟩
        obtain rfl : exits = false := take_result_exits hc hx hstays htake
        exact ⟨false, m₁, htake, (ih hl).2 ⟨m₂, hthrough, hlines⟩⟩

/-- An exit changes nothing, and ends the run if there is a branch that it is
executed on. -/
theorem step_result_exit (hc : calls.Steady) (hready : m.arena.Ready n)
    (hne : m.arena.leaves ≠ []) (hx : x.content = .act .exit) {exits : Bool} :
    (step host calls x).result w m = .ok (exits, m') ↔ exits = true ∧
    m' = m := by
  let found : Nat → Outcome :=
    fun i => { stream := (m.arena.cell i).stream, exits := true }
  have hexit : (m.arena.leaves.map found).any Outcome.exits = true := by
    obtain ⟨i, hi⟩ := List.exists_mem_of_ne_nil _ hne
    exact List.any_eq_true.2 ⟨found i, List.mem_map_of_mem hi, rfl⟩
  have hsame : m.hold (m.arena.after found) = m := m.hold_cell
  rw [step_result_of_plain hc hready hx rfl]
  constructor
  · rintro ⟨outcomes, hexecuted, rfl, rfl⟩
    have hfound : ∀ i ∈ m.arena.leaves, outcomes i = found i := fun i hi =>
      (Except.ok.inj (hexecuted i hi)).symm
    rw [List.map_congr_left hfound, hexit]
    refine ⟨rfl, Eq.trans (Machine.hold_congr fun i hi => ?_) hsame⟩
    exact congrArg (Cell.settle (m.arena.cell i)) (hfound i hi)
  · rintro ⟨rfl, rfl⟩
    exact ⟨found, fun i _ => rfl, hexit.symm, hsame.symm⟩

/-- **Lines without an exit** are a block that is closed to the end. -/
theorem lines_result_of_stays (hc : calls.Steady)
    (hl : ∀ x ∈ l, x.content ≠ .act .exit) {e : Ending} :
    (lines host calls none l).result w m = .ok (e, m') ↔
      e = .done ∧ (block host calls 0 l).result w m = .ok ((), m') := by
  rw [← List.append_nil l, lines_result_append hc hl, List.append_nil,
    block_result hc]
  simp only [lines_result_nil]
  constructor
  · rintro ⟨m₁, hthrough, rfl, hclose⟩
    exact ⟨rfl, m₁, hthrough, hclose⟩
  · rintro ⟨rfl, m₁, hthrough, hclose⟩
    exact ⟨m₁, hthrough, rfl, hclose⟩

/-- **An exit in no scope** ends the lines where it stands. In front of it the
block has been closed to the end already, so there is a single leaf, the root,
that the exit is executed on. -/
theorem lines_result_of_exit (hc : calls.Steady)
    (hl : ∀ x ∈ l, x.content ≠ .act .exit) (hx : x.content = .act .exit)
    (hzero : x.depth = 0) (l' : List (Placed Step)) {e : Ending}
    (hready : ∀ m₁, (block host calls 0 l).result w m = .ok ((), m₁) →
      m₁.arena.Ready 0 ∧ m₁.arena.leaves ≠ [] ∧ m₁.scopes = []) :
    (lines host calls none (l ++ x :: l')).result w m = .ok (e, m') ↔
      e = .done ∧ (block host calls 0 l).result w m = .ok ((), m') := by
  have hx' : x.content.isBlank = false := by
    rw [hx]
    rfl
  have hnothing : ∀ {m₁ : Machine}, m₁.scopes = [] →
      (closeTo host calls 0).result w m₁ = .ok ((), m₁) := fun {m₁} hnil =>
    closeTo_result_of_le (by rw [hnil]; exact Nat.le_refl 0) w
  rw [lines_result_append hc hl]
  simp only [lines_result_cons hc hx', take_result hc, hzero]
  constructor
  -- The exit closes what the lines before it have left open, and then nothing
  -- is open.
  · rintro ⟨m₁, hthrough, exits, m₃, ⟨m₂, hclose, hexit⟩, hrest⟩
    have hblock := (block_result hc 0 l).2 ⟨m₁, hthrough, hclose⟩
    obtain ⟨hready, hne, hnil⟩ := hready m₂ hblock
    obtain ⟨rfl, rfl⟩ := (step_result_exit hc hready hne hx).1 hexit
    obtain ⟨rfl, hagain⟩ := hrest
    rw [hnothing hnil] at hagain
    cases hagain
    exact ⟨rfl, hblock⟩
  · rintro ⟨rfl, hblock⟩
    obtain ⟨hready, hne, hnil⟩ := hready m' hblock
    obtain ⟨m₁, hthrough, hclose⟩ := (block_result hc 0 l).1 hblock
    exact ⟨m₁, hthrough, true, m',
      ⟨m', hclose, (step_result_exit hc hready hne hx).2 ⟨rfl, rfl⟩⟩, rfl,
      hnothing hnil⟩

/-- Lines are without an exit, or there is a first. -/
theorem exists_first_exit (l : List (Placed Step)) :
    (∀ x ∈ l, x.content ≠ .act .exit) ∨
      ∃ before x after, l = before ++ x :: after ∧ x.content = .act .exit ∧
        ∀ y ∈ before, y.content ≠ .act .exit := by
  induction l with
  | nil => exact .inl nofun
  | cons x l ih =>
    by_cases hx : x.content = .act .exit
    · exact .inr ⟨[], x, l, rfl, hx, nofun⟩
    · refine ih.imp (fun hl => List.forall_mem_cons.2 ⟨hx, hl⟩) ?_
      rintro ⟨before, y, after, rfl, hy, hbefore⟩
      exact ⟨x :: before, y, after, rfl, hy,
        List.forall_mem_cons.2 ⟨hx, hbefore⟩⟩

end Drive

/-! ## Bodies

The lines of a script and those of a function are executed from a root of their
own, which is the only leaf at the beginning. What is said about blocks and
each leaf is said there about one branch. -/

/-- **Lines that make up a program** or the body of a function: they hold no
error, and their exits stand in no scope. -/
structure IsBody (l : List (Placed Step)) : Prop where
  nested : Nested 0 l
  error?_eq_none : ∀ x ∈ l, x.content.error? = none
  depth_eq_zero : ∀ x ∈ l, x.content = .act .exit → x.depth = 0

/-- Before the first exit they are a block. -/
theorem IsBody.isBlock {l l' : List (Placed Step)} (h : IsBody (l ++ l'))
    (hl : ∀ x ∈ l, x.content ≠ .act .exit) : IsBlock 0 l where
  nested := h.nested.of_append
  le_depth _ _ _ := Nat.zero_le _
  error?_eq_none x hx := h.error?_eq_none x (List.mem_append_left l' hx)
  stays := hl

section Root

variable {input : Value} {locals : Bindings Value}
    {F : Spot → Cell → Act σ Cell} {m' : Machine}

/-- At the beginning the root is the only leaf. -/
theorem each_start :
    Each F w (Progress.start input locals).machine m' ↔
      ∃ c, (F {} { stream := input, locals }).value w = .ok c ∧
        m' = (Progress.start input locals).machine.hold fun _ => c := by
  have hspot : (Arena.root input locals).spot 0 = {} := by
    unfold Arena.spot
    rw [Arena.above_root]
    rfl
  constructor
  · rintro ⟨g, hg, rfl⟩
    have hroot := hg 0 (List.mem_singleton.2 rfl)
    change (F ((Arena.root input locals).spot 0) _).value w = _ at hroot
    rw [hspot] at hroot
    refine ⟨g 0, hroot, Machine.hold_congr fun i hi => ?_⟩
    rw [List.mem_singleton.1 hi]
  · rintro ⟨c, hc, rfl⟩
    refine ⟨fun _ => c, fun i hi => ?_, rfl⟩
    obtain rfl := List.mem_singleton.1 hi
    change (F ((Arena.root input locals).spot 0) _).value w = _
    rw [hspot]
    exact hc

/-- What the root holds then is the output. -/
theorem output_hold_start (c : Cell) :
    ((Progress.start input locals).machine.hold fun _ => c).arena.output
      = c.stream := rfl

/-- **Lines that are executed from the root** come to what they mean there. -/
theorem Drive.lines_result (hc : calls.Steady) {l : List (Placed Step)}
    (hl : IsBody l) {e : Ending} :
    (lines host calls none l).result w (Progress.start input locals).machine
      = .ok (e, m') ↔
      e = .done ∧ Each (PerElement.run calls l) w
      (Progress.start input locals).machine m' := by
  have hready := Arena.ready_root input locals
  obtain hstays | ⟨before, x, after, rfl, hx, hbefore⟩ := exists_first_exit l
  · rw [← List.append_nil l] at hl
    rw [lines_result_of_stays hc hstays,
      block_result_iff_each hc (hl.isBlock hstays) rfl hready]
  · have hblock := hl.isBlock hbefore
    have hzero :=
      hl.depth_eq_zero x (List.mem_append_right before List.mem_cons_self) hx
    have hrun : PerElement.run calls (before ++ x :: after)
        = PerElement.run calls before := by
      funext spot c
      exact PerElement.run_append_exit hx hzero before after spot c
    rw [hrun, ← block_result_iff_each hc hblock rfl hready]
    refine lines_result_of_exit hc hbefore hx hzero after fun m₁ hresult => ?_
    have heach := (block_result_iff_each hc hblock rfl hready).1 hresult
    refine ⟨heach.ready hready, ?_, heach.scopes_eq⟩
    obtain ⟨g, -, rfl⟩ := heach
    exact List.cons_ne_nil 0 []

/-- **What they leave in the root** is what they mean there. -/
theorem Drive.output_lines (hc : calls.Steady) {l : List (Placed Step)}
    (hl : IsBody l) (host : Host σ) {v : Value} :
    (∃ e m',
        (lines host calls none l).result w (Progress.start input locals).machine
        = .ok (e, m') ∧ m'.arena.output = v) ↔
      (do
        let c ← PerElement.run calls l {} { stream := input, locals }
        return c.stream).value w = .ok v := by
  rw [Act.value_bind_eq_ok_iff fun _ => Act.steady_closed.pure _]
  simp only [lines_result hc hl, each_start]
  constructor
  · rintro ⟨e, m', ⟨-, c, hrun, rfl⟩, rfl⟩
    exact ⟨c, hrun, rfl⟩
  · rintro ⟨c, hrun, hv⟩
    exact ⟨.done, _, ⟨rfl, c, hrun, rfl⟩,
      (output_hold_start c).trans (Except.ok.inj hv)⟩

end Root

/-! ## Functions

A function is called with a number of calls that may still nest. Those calls
are taken to be the same on both sides when the body is compared, and the body
uses them in the same places; so by induction on the number all calls are the
same. -/

/-- What a call of a function comes to. -/
theorem FunctionDef.value_run_eq_ok_iff {d : FunctionDef}
    {globals : Bindings Value} {target : Value} {arguments : List Value}
    {v : Value} :
    (d.run host calls globals target arguments).value w = .ok v ↔
      ∃ e m', (Drive.lines host calls none d.body).result w
        (Progress.start target (d.locals globals arguments)).machine
        = .ok (e, m') ∧
        m'.arena.output = v := by
  have hstart :
      ({ machine := (Progress.start target (d.locals globals arguments)).machine } :
      Progress) = .start target (d.locals globals arguments) := rfl
  unfold Act.value Drive.result Drive.outcome
  rw [FunctionDef.exec_run, hstart]
  rcases (Drive.lines host calls none d.body).exec
    (.start target (d.locals globals arguments)) w with ⟨e | ending, q, w'⟩
  · exact iff_of_false nofun (by rintro ⟨_, _, h, _⟩; cases h)
  · constructor
    · exact fun h => ⟨ending, q.machine, rfl, Except.ok.inj h⟩
    · rintro ⟨_, _, ⟨⟩, h⟩
      exact congrArg Except.ok h

/-- What a body means is steady. -/
theorem FunctionDef.steady_byElement (hc : calls.Steady) (d : FunctionDef)
    (globals : Bindings Value) (target : Value) (arguments : List Value) :
    (d.byElement calls globals target arguments).Steady :=
  Act.steady_closed.ordinarily.seq (PerElement.steady_run hc d.body _ _)
    fun _ => Act.steady_closed.pure _

/-- **Running the body of a function comes to what it means**, if the calls in
it are the same. -/
theorem FunctionDef.alike_run (hc : calls.Steady) {d : FunctionDef}
    (hd : IsBody d.body) (host : Host σ) (globals : Bindings Value)
    (target : Value) (arguments : List Value) :
    Act.Alike (d.run host calls globals target arguments)
      (d.byElement calls globals target arguments) :=
  Act.Alike.of_value (d.steady_byElement hc globals target arguments) fun _ _ =>
    FunctionDef.value_run_eq_ok_iff.trans (Drive.output_lines hc hd host)

/-- What a body means depends on the calls in it only for what they come to. -/
theorem FunctionDef.alike_byElement {calls' : Callables σ}
    (hc : Callables.Related (fun x y => Act.Alike x y) calls calls')
    (d : FunctionDef) (globals : Bindings Value) (target : Value)
    (arguments : List Value) :
    Act.Alike (d.byElement calls globals target arguments)
      (d.byElement calls' globals target arguments) :=
  Act.alike_closed.bind
    (PerElement.run_related Act.alike_closed hc (fun _ _ _ => rfl) d.body _ _)
    fun _ =>
      Act.alike_closed.pure _

namespace Program

variable {p : Program}

/-- With no allowance left there is nothing to be run. -/
theorem callByElement_zero (p : Program) (host : Host σ)
    (globals : Bindings Value) :
    p.callByElement host globals 0 = p.call host globals 0 := by
  funext name target arguments
  unfold callByElement call callWith
  rfl

/-- A name that the program does not define is called as it is. -/
theorem callByElement_of_none {name : String} (h : p.function? name = none)
    (host : Host σ) (globals : Bindings Value) (allowance : Nat)
    (target : Value) (arguments : List Value) :
    p.callByElement host globals allowance name target arguments
      = p.call host globals allowance name target arguments := by
  unfold callByElement
  rw [h]
  exact (call_of_none h).symm

/-- **Calls of functions come to what they mean**, however deep they nest. -/
theorem alike_call (hh : host.Steady) (hp : ∀ d ∈ p.functions, IsBody d.body)
    (globals : Bindings Value) (allowance : Nat) :
    Callables.Related (fun x y => Act.Alike x y)
      ⟨p.isNullary, p.call host globals allowance⟩
      ⟨p.isNullary, p.callByElement host globals allowance⟩ := by
  have hsteady := p.steady_call hh globals
  induction allowance with
  | zero =>
    rw [callByElement_zero]
    exact ⟨fun _ => rfl, fun name target arguments =>
      ((hsteady 0).call name target arguments).alike⟩
  | succ allowance ih =>
    refine ⟨fun _ => rfl, fun name target arguments => ?_⟩
    cases hd : p.function? name with
    | none =>
      show Act.Alike (p.call host globals (allowance + 1) name target arguments)
        (p.callByElement host globals (allowance + 1) name target arguments)
      rw [callByElement_of_none hd]
      exact ((hsteady (allowance + 1)).call name target arguments).alike
    | some d =>
      have hmem : d ∈ p.functions :=
        List.mem_reverse.1 (List.mem_of_find?_eq_some hd)
      show Act.Alike (p.call host globals (allowance + 1) name target arguments)
        (p.callByElement host globals (allowance + 1) name target arguments)
      rw [call_succ_of_some hd, callByElement, hd]
      -- First the body is read element by element, then the calls in it.
      have harity := ordinary_checkArity name 0 d.params.length arguments.length
      refine Act.alike_closed.bind (Act.alike_closed.lift harity.fits)
        fun _ => ?_
      exact (FunctionDef.alike_run (hsteady allowance) (hp d hmem) host
        globals target arguments).trans
        (d.alike_byElement ih globals target arguments)

/-! ## Programs

What is left is to read off from a script that its lines are bodies in the
sense above, and to put the result of a run together: the error, the output of
the root, and the token that another run would have taken. -/

/-- **The script's own lines and the bodies of its functions** can be read
element by element, if there is no error in the script and no exit in a
scope. -/
theorem isBody_readItems {lines : List NumberedLine}
    (hdiag : (mk (readItems {} lines)).diagnostic = none)
    (hexits : ∀ x ∈ (mk (readItems {} lines)).allSteps, x.content = .act .exit →
      x.depth = 0) :
    IsBody (mk (readItems {} lines)).steps ∧
      ∀ d ∈ (mk (readItems {} lines)).functions, IsBody d.body := by
  have hnested : Nested 0 (mk (readItems {} lines)).steps :=
    (laidOut_readItems {} lines).nested
  have hlaid := @laidOut_of_mem_blocks_readItems lines
  generalize mk (readItems {} lines) = p at hdiag hexits hnested hlaid ⊢
  have herror := @error?_eq_none_of_mem_blocks p hdiag
  refine ⟨⟨hnested, fun x hx => ?_, fun x hx hexit => ?_⟩, fun d hd => ?_⟩
  · obtain ⟨y, hy, rfl⟩ := List.mem_map.1 hx
    exact herror List.mem_cons_self hy
  · exact hexits x (mem_allSteps_of_mem_steps hx (by rw [hexit]; rfl)) hexit
  · have hblock : d.body.map (Placed.map Item.step) ∈ p.blocks :=
      List.mem_cons_of_mem _ (List.mem_map.2 ⟨d, hd, rfl⟩)
    -- A body is laid out on its own, like a script.
    have hbody := (hlaid hblock).nested
    rw [show (d.body.map (Placed.map Item.step)).map (Placed.map Item.toStep)
      = d.body from
      stepsOf_body d.body] at hbody
    refine ⟨hbody, fun x hx => ?_,
      fun x hx => hexits x (mem_allSteps_of_mem_body hd hx)⟩
    exact herror hblock (List.mem_map.2 ⟨x, hx, rfl⟩)

/-- For a script that is given as a text. -/
theorem isBody_of_ofScript {script : String} (hp : ofScript script = .ok p)
    (hdiag : p.diagnostic = none)
    (hexits : ∀ x ∈ p.allSteps, x.content = .act .exit → x.depth = 0) :
    IsBody p.steps ∧ ∀ d ∈ p.functions, IsBody d.body := by
  obtain ⟨lines, -, rfl⟩ := ofScript_eq_ok_iff.1 hp
  exact isBody_readItems hdiag hexits

/-- What a program means does not depend on how its functions are called. -/
theorem alike_byElement (hh : host.Steady)
    (hp : ∀ d ∈ p.functions, IsBody d.body) (globals : Bindings Value)
    (input : Value) :
    Act.Alike (do
        let c ← PerElement.run (p.callables host globals) p.steps {}
          { stream := input, locals := globals }
        return c.stream) (p.byElement host globals input) := by
  refine Act.alike_closed.bind ?_ fun _ => Act.alike_closed.pure _
  exact PerElement.run_related Act.alike_closed
    (p.alike_call hh hp globals callLimit) (fun _ _ _ => rfl) p.steps _ _

/-- What a run hands back, if no other run has begun. -/
theorem run_eq_some_iff {globals : Bindings Value} {input : Value}
    (hfresh : ((p.run host globals input).run w).2.generation
      = w.generation + 1) {v : Value} :
    (∃ r, ((p.run host globals input).run w).1 = some r ∧ r.isComplete = true ∧
      r.output = v) ↔
      ∃ m',
        (Drive.lines host (p.callables host globals) none p.steps).result
        w.begin (Progress.start input globals).machine = .ok (.done, m') ∧
        m'.arena.output = v := by
  have hstart :
      ({ machine := (Progress.start input globals).machine } : Progress)
      = .start input globals := rfl
  unfold run at hfresh ⊢
  rw [run_runLines] at hfresh ⊢
  -- As no other run has begun, the token has made no difference.
  have hnone := Drive.exec_lines_of_fresh hfresh
  unfold Drive.result Drive.outcome
  rw [hstart, ← hnone]
  rcases (Drive.lines host (p.callables host globals) (some (w.generation + 1))
    p.steps).exec (.start input globals) w.begin with ⟨e | _ | _, q, u⟩
  · exact iff_of_false (by rintro ⟨_, ⟨⟩, h, _⟩; cases h)
      (by rintro ⟨_, h, _⟩; cases h)
  · exact ⟨by rintro ⟨_, ⟨⟩, _, h⟩; exact ⟨q.machine, rfl, h⟩,
      by rintro ⟨_, ⟨⟩, h⟩; exact ⟨_, rfl, rfl, h⟩⟩
  · exact iff_of_false (by rintro ⟨_, h, _⟩; cases h)
      (by rintro ⟨_, h, _⟩; cases h)

/-- **A run and what its script means come to the same output.** One of them
comes to a value if and only if the other comes to it, whatever the input, the
globals and a steady host, as long as no other run begins. -/
theorem run_iff_byElement {script : String} (hp : ofScript script = .ok p)
    (hdiag : p.diagnostic = none)
    (hexits : ∀ x ∈ p.allSteps, x.content = .act .exit → x.depth = 0)
    (hh : host.Steady) {globals : Bindings Value} {input : Value}
    (hfresh : ((p.run host globals input).run w).2.generation
      = w.generation + 1) (v : Value)
    (w' : World σ) :
    (∃ r, ((p.run host globals input).run w).1 = some r ∧ r.isComplete = true ∧
      r.output = v) ↔
      (p.byElement host globals input).value w' = .ok v := by
  obtain ⟨hsteps, hbodies⟩ := isBody_of_ofScript hp hdiag hexits
  have hsteady := p.steady_callables hh globals
  have halike := p.alike_byElement hh hbodies globals input
  rw [run_eq_some_iff hfresh, ← halike.value_eq_ok_iff w.begin,
    ← Drive.output_lines hsteady hsteps host]
  constructor
  · rintro ⟨m', hlines, hv⟩
    exact ⟨.done, m', hlines, hv⟩
  · rintro ⟨e, m', hlines, hv⟩
    obtain ⟨rfl, -⟩ := (Drive.lines_result hsteady hsteps).1 hlines
    exact ⟨m', hlines, hv⟩

end Program

/-- A program with a scope in a scope keeps of every list what is true. -/
theorem keepProgram_byElement :
    let input : Value := .array [.array [.truth true, .truth false], .array []]
    (keepProgram.byElement (Host.none Unit) [] input).value ⟨(), 0⟩
      = .ok (.array [.array [.truth true], .array []]) := by
  intro input
  have hdiag : keepProgram.diagnostic = none := by cbv
  have hexits : ∀ x ∈ keepProgram.allSteps, x.content = .act .exit →
      x.depth = 0 := by
    intro x hx hexit
    change x ∈ [_, _, _, _, _] at hx
    simp only [List.mem_cons, List.not_mem_nil, or_false] at hx
    obtain rfl | rfl | rfl | rfl | rfl := hx
    · rfl
    · rfl
    · cases hexit
    · cases hexit
    · cases hexit
  have hfresh :
      ((keepProgram.run (Host.none Unit) [] input).run ⟨(), 0⟩).2.generation
      = 1 := by
    cbv
  have hrun : ((keepProgram.run (Host.none Unit) [] input).run ⟨(), 0⟩).1.map
      (fun r => (r.isComplete, r.output))
        = some (true, .array [.array [.truth true], .array []]) := by
    cbv
  obtain ⟨r, hr, hfields⟩ := Option.map_eq_some_iff.1 hrun
  obtain ⟨hcomplete, houtput⟩ := Prod.mk.inj hfields
  exact (Program.run_iff_byElement ofScript_keepScript hdiag hexits
    (Host.steady_none Unit) hfresh
    _ ⟨(), 0⟩).1 ⟨r, hr, hcomplete, houtput⟩

end StreamScript
