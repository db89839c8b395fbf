import Mathlib.Tactic.Choose
import StreamScript.Proofs.Closure

/-!
# Runs that do not ask which world they are in

The answers of a host may depend on what it has been asked before. Where they
depend on the request alone (`Host.Steady`), so does everything that a run
finds out, and the order of its requests is of no matter to it. Acts are then
as good as their results: `Act.value` and `Drive.result` read a result off in
any one world, and on steady acts and drives both take `>>=` to `>>=`.

Two acts can be compared in two ways. They *agree* if their results are the
same, errors included. They are *alike* if they have the same value or both
fail; that is what is left when work is done in another order, since then
another error may come first.
-/

namespace StreamScript

variable {σ τ α β : Type}

/-! ## Acts

Two acts of one kind may be given different worlds and still be compared by
their results, if these do not depend on the world. What is to be compared must
be compared in all worlds, since the acts before it may have left any. -/

namespace Act

/-- **Two acts with one result**, whatever worlds they meet. The same errors
are meant too, so this is more than being alike; it is used where both acts are
one. -/
def Agree (x y : Act σ α) : Prop :=
  ∀ w w', (x.exec w).1 = (y.exec w').1

/-- **Two acts with one value**, whatever worlds they meet: either fails if the
other does. The worlds may even be of different kinds. Which error it is is
left open, because a run whose tasks are done in another order may come upon
another one first. -/
def Alike (x : Act σ α) (y : Act τ α) : Prop :=
  ∀ w w', (x.exec w).1.toOption = (y.exec w').1.toOption

/-- **An act whose result does not depend on the world.** It may change the
world, and its requests may even depend on it; what it comes to does not. -/
def Steady (x : Act σ α) : Prop :=
  Agree x x

/-- To agree is kept by sequencing: the later acts meet different worlds, and
agree in all of them. -/
theorem agree_closed : Closed fun x y : Act σ _ => Agree x y where
  pure _ _ _ := rfl
  throw _ _ _ _ := rfl
  bind {_ _ x y f g} h hf w w' := by
    -- The first two may leave different worlds, and the later ones agree in
    -- any.
    have hw := h w w'
    rw [exec_bind, exec_bind]
    rcases hx : x.exec w with ⟨r, w₁⟩
    rcases hy : y.exec w' with ⟨r', w₁'⟩
    obtain rfl : r = r' := by rwa [hx, hy] at hw
    cases r with
    | error e => rfl
    | ok a => exact hf a w₁ w₁'

/-- So is to be alike. Where one side fails the other does, possibly later. -/
theorem alike_closed : Closed fun (x : Act σ _) (y : Act τ _) => Alike x y where
  pure _ _ _ := rfl
  throw _ _ _ _ := rfl
  bind {_ _ x y f g} h hf w w' := by
    have hw := h w w'
    rw [exec_bind, exec_bind]
    rcases hx : x.exec w with ⟨_ | a, w₁⟩ <;>
      rcases hy : y.exec w' with ⟨_ | b, w₁'⟩ <;>
      rw [hx, hy] at hw
    · rfl
    · cases hw
    · cases hw
    · cases hw
      exact hf a w₁ w₁'

theorem steady_closed : Closed fun x _ : Act σ _ => Steady x where
  pure := agree_closed.pure
  throw := agree_closed.throw
  bind h hf := agree_closed.bind h hf

/-- Acts that agree are alike. -/
theorem Agree.alike {x y : Act σ α} (h : Agree x y) : Alike x y :=
  fun w w' => congrArg Except.toOption (h w w')

theorem Alike.trans {x y z : Act σ α} (h : Alike x y) (h' : Alike y z) :
    Alike x z :=
  fun w w' => (h w w).trans (h' w w')

/-- **The result of an act**, read off in a world. For a steady act it does not
matter in which world. -/
def value (x : Act σ α) (w : World σ) : Except RunError α :=
  (x.exec w).1

@[simp] theorem value_lift (r : Except RunError α) (w : World σ) :
    (liftM r : Act σ α).value w = r := rfl

/-- Acts one after the other can be read in one world, if the later ones are
steady. -/
theorem value_bind {x : Act σ α} {f : α → Act σ β} (hf : ∀ a, (f a).Steady)
    (w : World σ) :
    (x >>= f).value w = x.value w >>= fun a => (f a).value w := by
  unfold value
  rw [exec_bind]
  obtain ⟨_ | a, w'⟩ := x.exec w
  · rfl
  -- The world that the first act leaves is another, but the later one does not
  -- see it.
  · exact hf a w' w

/-! ### Success

Of an act that succeeds, its value is all that is asked here. A list of acts
succeeds if each of its elements does, on its own and in the same world. -/

theorem exec_of_value {x : Act σ α} {w : World σ} {a : α}
    (h : x.value w = .ok a) :
    ∃ v, x.exec w = (.ok a, v) := by
  unfold value at h
  exact ⟨(x.exec w).2, by rw [← h]⟩

/-- Acts one after the other have a value if each of them has. -/
theorem value_bind_eq_ok_iff {x : Act σ α} {f : α → Act σ β}
    (hf : ∀ a, (f a).Steady) {w : World σ} {b : β} :
    (x >>= f).value w = .ok b ↔ ∃ a, x.value w = .ok a ∧
    (f a).value w = .ok b := by
  rw [value_bind hf]
  cases x.value w with
  | error e => exact iff_of_false nofun (by rintro ⟨_, h, _⟩; cases h)
  | ok a => exact ⟨fun h => ⟨a, rfl, h⟩, by rintro ⟨_, ⟨⟩, h⟩; exact h⟩

/-- **A list has a value if all its elements have**, and it is the list of
theirs. The elements are gone through one after the other, each in the world
that the one before it leaves. As they are steady, all of them can be read off
in one world. -/
theorem value_mapM_eq_ok_iff [Inhabited β] {f : α → Act σ β}
    (hf : ∀ a, (f a).Steady) {l : List α} {w : World σ} {bs : List β} :
    (l.mapM f).value w = .ok bs ↔ ∃ g, (∀ a ∈ l, (f a).value w = .ok (g a)) ∧
    bs = l.map g := by
  induction l generalizing bs with
  | nil => exact ⟨fun h => ⟨fun _ => default, nofun, (Except.ok.inj h).symm⟩,
      fun ⟨_, _, h⟩ => congrArg Except.ok h.symm⟩
  | cons a l ih =>
    have hrest : ∀ b : β, (do let bs ← l.mapM f; pure (b :: bs)).Steady :=
      fun b =>
      steady_closed.ordinarily.seq
        (steady_closed.ordinarily.mapM (g := f) l fun a _ => hf a) fun bs =>
        steady_closed.pure _
    rw [List.mapM_cons, value_bind_eq_ok_iff hrest]
    constructor
    · rintro ⟨b, hb, h⟩
      obtain ⟨bs, hbs, h⟩ :=
        (value_bind_eq_ok_iff fun _ => steady_closed.pure _).1 h
      cases h
      obtain ⟨g₀, hg₀, rfl⟩ := ih.1 hbs
      -- An element may come twice, so the values are chosen anew for the whole
      -- list.
      have hall : ∀ c ∈ a :: l, ∃ b, (f c).value w = .ok b :=
        List.forall_mem_cons.2 ⟨⟨b, hb⟩, fun c hc => ⟨g₀ c, hg₀ c hc⟩⟩
      choose! g hg using hall
      obtain ⟨ha, hl⟩ := List.forall_mem_cons.1 hg
      have hsame : ∀ c ∈ l, g₀ c = g c := fun c hc =>
        Except.ok.inj ((hg₀ c hc).symm.trans (hl c hc))
      refine ⟨g, hg, ?_⟩
      rw [List.map_cons, List.map_congr_left hsame,
        Except.ok.inj (hb.symm.trans ha)]
    · rintro ⟨g, hg, rfl⟩
      refine ⟨g a, hg a List.mem_cons_self,
        (value_bind_eq_ok_iff fun _ => steady_closed.pure _).2 ⟨l.map g,
          ih.2 ⟨g, fun c hc => hg c (List.mem_cons_of_mem a hc), rfl⟩, rfl⟩⟩

theorem toOption_eq_some_iff {ε : Type} {r : Except ε α} {a : α} :
    r.toOption = some a ↔ r = .ok a := by
  cases r with
  | error e => exact iff_of_false nofun nofun
  | ok b =>
    exact ⟨fun h => congrArg _ (Option.some.inj h), fun h => by rw [h]; rfl⟩

/-- Acts that are alike have the same value, each read in a world of its own. -/
theorem Alike.value_eq_ok_iff {x y : Act σ α} (h : Alike x y) (w w' : World σ)
    {a : α} :
    x.value w = .ok a ↔ y.value w' = .ok a := by
  rw [← toOption_eq_some_iff, ← toOption_eq_some_iff, value, value, h w w']

/-- Steady acts are alike if they have the same value in every world. -/
theorem Alike.of_value {x y : Act σ α} (hy : y.Steady)
    (h : ∀ w a, x.value w = .ok a ↔ y.value w = .ok a) : Alike x y := by
  intro w w'
  rw [hy w' w]
  -- An option is known by the values it may have, and failing is having none.
  refine Option.ext fun a => ?_
  rw [toOption_eq_some_iff, toOption_eq_some_iff]
  exact h w a

end Act

/-! ## Drives

A drive changes the machine, so its result is the value together with the
machine after it. The line that has been reached is left out: it is written and
never read. -/

namespace Drive

/-- What a drive leaves that a run can go on with or report: its result and the
machine. -/
def outcome (d : Drive σ α) (p : Progress) (w : World σ) :
    Except RunError α × Machine :=
  ((d.exec p w).1, (d.exec p w).2.1.machine)

/-- **A drive that depends on the machine alone**, not on the world or on the
lines before. The line it has come to is not part of the machine: it is written
by a run and never read. -/
def Steady (d : Drive σ α) : Prop :=
  ∀ p p' w w', p.machine = p'.machine → d.outcome p w = d.outcome p' w'

/-- The outcome of drives one after the other. -/
theorem outcome_bind (d : Drive σ α) (f : α → Drive σ β) (p : Progress)
    (w : World σ) :
    (d >>= f).outcome p w =
      match d.exec p w with
      | (.ok a, p', w') => (f a).outcome p' w'
      | (.error e, p', _) => (.error e, p'.machine) := by
  unfold outcome
  rw [exec_bind]
  rcases d.exec p w with ⟨_ | a, p', w'⟩ <;> rfl

theorem steady_closed : Closed (σ := σ) Act.Steady Steady where
  pure _ _ _ _ _ h := by rw [outcome, outcome, exec_pure, exec_pure, h]
  bind {_ _ d f} hd hf p p' w w' h := by
    have hp := hd p p' w w' h
    rw [outcome_bind, outcome_bind]
    rcases h₁ : d.exec p w with ⟨r, q, w₁⟩
    rcases h₂ : d.exec p' w' with ⟨r', q', w₁'⟩
    rw [outcome, outcome, h₁, h₂] at hp
    obtain ⟨rfl, hm⟩ := Prod.mk.inj hp
    cases r with
    | error e => exact congrArg (Prod.mk _) hm
    | ok a => exact hf a q q' w₁ w₁' hm
  machine _ _ _ _ h := by rw [outcome, outcome, exec_machine, exec_machine, h]
  become m _ _ _ _ _ := by rw [outcome, outcome, exec_become, exec_become]
  arrive _ _ _ _ _ h := congrArg (Prod.mk _) h
  pause _ _ _ _ _ h := congrArg (Prod.mk _) h
  perform {_ act} hact p p' w w' h := by
    rw [outcome, outcome, exec_perform, exec_perform, hact w w', h]
  blame {_ d} line hd p p' w w' h := by
    have hp := hd p p' w w' h
    rw [outcome, outcome, exec_blame, exec_blame]
    rcases h₁ : d.exec p w with ⟨r, q, w₁⟩
    rcases h₂ : d.exec p' w' with ⟨r', q', w₁'⟩
    rw [outcome, outcome, h₁, h₂] at hp
    obtain ⟨rfl, hm⟩ := Prod.mk.inj hp
    cases r <;> exact congrArg (Prod.mk _) hm

theorem steady_admits (s : Placed Step) :
    Admits (σ := σ) Steady s := fun e _ _ _ _ _ h => by
  rw [outcome, outcome, exec_throw, exec_throw, h]

/-- Without a token nothing is looked at. -/
theorem steady_isSuperseded (host : Host σ) : Steady (isSuperseded host none) :=
  fun _ _ _ _ h => congrArg (Prod.mk _) h

/-- **The result of a drive** on a machine, read off in a world: its value and
the machine after it. An error is all that is left of a drive that fails; the
branches it leaves are of no use to what follows. -/
def result (d : Drive σ α) (w : World σ) (m : Machine) :
    Except RunError (α × Machine) :=
  match d.outcome { machine := m } w with
  | (.ok a, m') => .ok (a, m')
  | (.error e, _) => .error e

@[simp] theorem result_arrive (line : Nat) (w : World σ) (m : Machine) :
    (arrive line : Drive σ Unit).result w m = .ok ((), m) := rfl

/-- Drives one after the other can be read in one world, if the later ones are
steady. -/
theorem result_bind {d : Drive σ α} {f : α → Drive σ β} (hf : ∀ a, (f a).Steady)
    (w : World σ) (m : Machine) :
    (d >>= f).result w m = d.result w m >>= fun (a, m') =>
    (f a).result w m' := by
  unfold result
  rw [outcome_bind]
  unfold outcome
  obtain ⟨_ | a, p, w'⟩ := d.exec { machine := m } w
  · rfl
  · show (match (f a).outcome p w' with | (.ok b, m') => _ | (.error e, _) => _)
        = _
    rw [hf a p { machine := p.machine } w' w rfl]
    rfl

/-- They come to something if each of them does. -/
theorem result_bind_eq_ok_iff {d : Drive σ α} {f : α → Drive σ β}
    (hf : ∀ a, (f a).Steady) {w : World σ} {m m' : Machine} {b : β} :
    (d >>= f).result w m = .ok (b, m') ↔
      ∃ a m₁, d.result w m = .ok (a, m₁) ∧ (f a).result w m₁ = .ok (b, m') := by
  rw [result_bind hf]
  obtain _ | ⟨a, m₁⟩ := d.result w m
  · exact iff_of_false nofun (by rintro ⟨_, _, h, _⟩; cases h)
  · exact ⟨fun h => ⟨a, m₁, rfl, h⟩, by rintro ⟨_, _, ⟨⟩, h⟩; exact h⟩

/-- What a drive comes to is what it comes to when it is executed. -/
theorem result_eq_ok_iff {d : Drive σ α} {w : World σ} {m m' : Machine}
    {a : α} :
    d.result w m = .ok (a, m') ↔
      ∃ line w', d.exec { machine := m } w
        = (.ok a, { machine := m', lastLine := line }, w') := by
  unfold result outcome
  obtain ⟨_ | b, ⟨n, line⟩, w₁⟩ := d.exec { machine := m } w
  · simp
  · simp

end Drive

/-! ## Hosts

The state of a host may change with every request, and does not matter if no
answer shows it. Whatever has been asked before, a request has one answer then.
Calls, lines and runs with such a host are steady for this one reason. -/

/-- **A host whose answers depend on the request alone.** Its state may change
with every request; the answers do not show it. There is nothing in it about
when other runs begin. That they do not begin is asked for separately, where a
result is compared. -/
structure Host.Steady (host : Host σ) : Prop where
  sideOutput : ∀ label v s s',
    (host.sideOutput label v s).answer = (host.sideOutput label v s').answer
  listFiles : ∀ s s', (host.listFiles s).answer = (host.listFiles s').answer
  loadFile : ∀ name s s',
    (host.loadFile name s).answer = (host.loadFile name s').answer

/-- A host that refuses everything refuses it always. -/
theorem Host.steady_none (σ : Type) : (Host.none σ).Steady where
  sideOutput _ _ _ _ := rfl
  listFiles _ _ := rfl
  loadFile _ _ _ := rfl

theorem Act.steady_request {ask : σ → Reply σ α}
    (h : ∀ s s', (ask s).answer = (ask s').answer) :
    (Act.request ask).Steady := by
  intro w w'
  rw [Act.exec_request, Act.exec_request, h w.host w'.host]

theorem Host.Steady.closed {host : Host σ} (h : host.Steady) :
    host.Closed Act.Steady where
  sideOutput label v := Act.steady_request (h.sideOutput label v)
  listFiles := Act.steady_request h.listFiles
  loadFile name := Act.steady_request (h.loadFile name)

/-- Calls that are steady, one by one. -/
abbrev Callables.Steady (calls : Callables σ) : Prop :=
  Callables.Related (fun x _ => Act.Steady x) calls calls

/-- What a line does on a leaf is steady if the calls are. -/
theorem Arena.steady_outcome {calls : Callables σ} (hc : calls.Steady)
    (a : Arena) (action : Action) (leaf : Nat) :
    (a.outcome calls action leaf).Steady :=
  a.outcome_related Act.steady_closed hc action leaf

/-- A body that is steady as a run of lines is steady as a call. -/
theorem FunctionDef.steady_run {d : FunctionDef} {host : Host σ}
    {calls : Callables σ} (h : (Drive.lines host calls none d.body).Steady)
    (globals : Bindings Value) (target : Value) (arguments : List Value) :
    (d.run host calls globals target arguments).Steady := by
  intro w w'
  rw [FunctionDef.exec_run, FunctionDef.exec_run]
  generalize Progress.start target (d.locals globals arguments) = start
  have hs := h start start w w' rfl
  rcases h₁ : (Drive.lines host calls none d.body).exec start w with ⟨r, q, w₁⟩
  rcases h₂ : (Drive.lines host calls none d.body).exec start
      w' with ⟨r', q', w₁'⟩
  rw [Drive.outcome, Drive.outcome, h₁, h₂] at hs
  obtain ⟨rfl, hm⟩ := Prod.mk.inj hs
  cases r with
  | error e => rfl
  | ok ending => exact congrArg (fun m : Machine => Except.ok m.arena.output) hm

/-- **With a steady host all calls are steady.** The host is asked in built-in
functions only, and through them in the bodies of functions. -/
theorem Program.steady_call {host : Host σ} (h : host.Steady) (p : Program)
    (globals : Bindings Value) (allowance : Nat) :
    Callables.Steady ⟨p.isNullary, p.call host globals allowance⟩ :=
  p.call_closed Act.steady_closed Drive.steady_closed h.closed
    (Drive.steady_isSuperseded host) (fun _ _ globals target arguments hlines =>
      FunctionDef.steady_run hlines globals target arguments)
    (fun _ _ s _ => Drive.steady_admits s) globals allowance

/-- In particular all calls that the lines of a program make. -/
theorem Program.steady_callables {host : Host σ} (h : host.Steady) (p : Program)
    (globals : Bindings Value) : (p.callables host globals).Steady :=
  p.steady_call h globals callLimit

/-- A run of lines without a token is steady. -/
theorem Drive.steady_lines {calls : Callables σ} (hc : calls.Steady)
    (host : Host σ) (l : List (Placed Step)) :
    (lines host calls none l).Steady :=
  lines_closed Act.steady_closed steady_closed hc host
    (steady_isSuperseded host) fun s _ =>
    steady_admits s

end StreamScript
