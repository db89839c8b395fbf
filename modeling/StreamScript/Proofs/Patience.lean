import StreamScript.Proofs.Moves
import StreamScript.Proofs.Steady

/-!
# Runs that do not notice a pause

Between one move and the next a run pauses, and the world goes on. Two runs that
do the same, one of them with a pause more than the other, therefore go on in
different worlds, and can only do the same if the host lets the pause make no
difference (`Host.Patient`). It may be that its answers do not depend on its
state at all, or that its state changes when it is asked and at no other time.
Newer runs may begin in a pause in either case.

Both are cases of one thing. Some relation between worlds is kept by all that a
run does, and related worlds lead to the same results; a run is *blind* to the
difference (`Act.Blind`, `Drive.Blind`). In the first case all worlds are
related, in the second those with the same state of the host.

Scopes are closed with the same result in related worlds, whatever line the run
has reached when it begins to close them (`Drive.closeTo_blind`).
-/

namespace StreamScript

variable {σ α : Type} {R : World σ → World σ → Prop}

/-- **A relation between worlds that pauses keep.** -/
def World.Lasting (R : World σ → World σ → Prop) : Prop :=
  ∀ (host : Host σ) w w', R w w' → R (w.pause host) (w'.pause host)

/-! ## Acts

That an act is blind says two things: related worlds lead to the same result,
and they lead to related worlds. The latter is needed for what comes behind it.
-/

/-- **An act that does not see the difference** between related worlds. It
leaves related worlds as well. -/
def Act.Blind (R : World σ → World σ → Prop) (x : Act σ α) : Prop :=
  ∀ w w', R w w' → (x.exec w).1 = (x.exec w').1 ∧ R (x.exec w).2 (x.exec w').2

/-- To be blind is kept by sequencing. -/
theorem Act.blind_closed (R : World σ → World σ → Prop) :
    Closed fun x _ : Act σ _ => Blind R x where
  pure _ _ _ h := ⟨rfl, h⟩
  throw _ _ _ _ h := ⟨rfl, h⟩
  bind {_ _ x _ f _} hx hf w w' h := by
    have hw := hx w w' h
    rw [exec_bind, exec_bind]
    rcases h₁ : x.exec w with ⟨r, v⟩
    rcases h₂ : x.exec w' with ⟨r', v'⟩
    rw [h₁, h₂] at hw
    obtain ⟨rfl, hv⟩ := hw
    cases r with
    | error e => exact ⟨rfl, hv⟩
    | ok a => exact hf a v v' hv

/-- Calls that do not see the difference, one by one. -/
abbrev Callables.Blind (R : World σ → World σ → Prop) (calls : Callables σ) :
    Prop :=
  Callables.Related (fun x _ => Act.Blind R x) calls calls

/-! ## Drives

A drive is asked the same from one machine, whatever lines have been reached.
What it hands on are the result and the machine. -/

/-- **A drive that does not see the difference** between related worlds, nor
between the lines that the run has reached. -/
def Drive.Blind (R : World σ → World σ → Prop) (d : Drive σ α) : Prop :=
  ∀ p p' w w', p.machine = p'.machine → R w w' →
    d.outcome p w = d.outcome p' w' ∧ R (d.exec p w).2.2 (d.exec p' w').2.2

/-- To be blind is kept by sequencing, and by all the primitives. -/
theorem Drive.blind_closed (hR : World.Lasting R) :
    Closed (Act.Blind R) (Drive.Blind R) where
  pure _ _ _ _ _ h hw := ⟨by rw [outcome, outcome, exec_pure, exec_pure, h], hw⟩
  bind {_ _ d f} hd hf p p' w w' h hw := by
    have hp := hd p p' w w' h hw
    rw [outcome_bind, outcome_bind, exec_bind, exec_bind]
    rcases h₁ : d.exec p w with ⟨r, q, v⟩
    rcases h₂ : d.exec p' w' with ⟨r', q', v'⟩
    rw [outcome, outcome, h₁, h₂] at hp
    obtain ⟨heq, hv⟩ := hp
    obtain ⟨rfl, hm⟩ := Prod.mk.inj heq
    cases r with
    | error e => exact ⟨congrArg (Prod.mk _) hm, hv⟩
    | ok a => exact hf a q q' v v' hm hv
  machine _ _ _ _ h hw :=
    ⟨by rw [outcome, outcome, exec_machine, exec_machine, h], hw⟩
  become _ _ _ _ _ _ hw :=
    ⟨by rw [outcome, outcome, exec_become, exec_become], hw⟩
  arrive _ _ _ _ _ h hw := ⟨congrArg (Prod.mk _) h, hw⟩
  pause host _ _ w w' h hw := ⟨congrArg (Prod.mk _) h, hR host w w' hw⟩
  perform {_ act} hact p p' w w' h hw := by
    obtain ⟨hr, hv⟩ := hact w w' hw
    refine ⟨?_, hv⟩
    rw [outcome, outcome, exec_perform, exec_perform, hr, h]
  blame {_ d} line hd p p' w w' h hw := by
    have hp := hd p p' w w' h hw
    rw [outcome, outcome, exec_blame, exec_blame]
    rcases h₁ : d.exec p w with ⟨r, q, v⟩
    rcases h₂ : d.exec p' w' with ⟨r', q', v'⟩
    rw [outcome, outcome, h₁, h₂] at hp
    obtain ⟨heq, hv⟩ := hp
    obtain ⟨rfl, hm⟩ := Prod.mk.inj heq
    cases r <;> exact ⟨congrArg (Prod.mk _) hm, hv⟩

/-- A line that fits no form fails in all worlds. -/
theorem Drive.blind_admits (R : World σ → World σ → Prop) (s : Placed Step) :
    Admits (Drive.Blind R) s := fun e _ _ _ _ _ h hw =>
  ⟨by rw [outcome, outcome, exec_throw, exec_throw, h], hw⟩

/-- **With a host that does not see the difference no call does**, however deep
it nests. -/
theorem Program.blind_call (hR : World.Lasting R) {host : Host σ}
    (hh : host.Closed (Act.Blind R)) (p : Program) (globals : Bindings Value)
    (allowance : Nat) :
    Callables.Blind R ⟨p.isNullary, p.call host globals allowance⟩ := by
  have hlook : (Drive.isSuperseded host none).Blind R := fun _ _ w w' h hw =>
    ⟨congrArg (Prod.mk _) h, hR host w w' hw⟩
  refine p.call_closed (Act.blind_closed R) (Drive.blind_closed hR) hh hlook ?_
    (fun _ _ s _ => Drive.blind_admits R s) globals allowance
  intro d calls globals target arguments hlines w w' hw
  rw [FunctionDef.exec_run, FunctionDef.exec_run]
  generalize Progress.start target (d.locals globals arguments) = start
  have hs := hlines start start w w' rfl hw
  rcases h₁ : (Drive.lines host calls none d.body).exec start w with ⟨r, q, v⟩
  rcases h₂ : (Drive.lines host calls none d.body).exec start
      w' with ⟨r', q', v'⟩
  rw [Drive.outcome, Drive.outcome, h₁, h₂] at hs
  obtain ⟨heq, hv⟩ := hs
  obtain ⟨rfl, hm⟩ := Prod.mk.inj heq
  cases r with
  | error e => exact ⟨rfl, hv⟩
  | ok ending =>
    exact ⟨congrArg (fun m : Machine => Except.ok m.arena.output) hm, hv⟩

/-! ## Hosts

What a host does in a pause is its own affair: it may change its state, and new
runs may begin. It is patient if no request shows that. -/

/-- **A host that lets a pause make no difference**: its answers depend on the
request alone, or it changes only when it is asked. -/
def Host.Patient (host : Host σ) : Prop :=
  host.Steady ∨ ∀ s, (host.pause s).1 = s

/-- A host that refuses everything waits for the next request. -/
theorem Host.patient_none (σ : Type) : (Host.none σ).Patient :=
  .inr fun _ => rfl

/-- **Pausing leads to a world that is not seen to be another**, by the host
and by all that asks it. -/
theorem Host.Patient.exists_blind {host : Host σ} (hh : host.Patient) :
    ∃ R : World σ → World σ → Prop, World.Lasting R ∧
      host.Closed (Act.Blind R) ∧
      ∀ w, R w (w.pause host) := by
  obtain hsteady | hquiet := hh
  · have hblind : ∀ {α : Type} {ask : σ → Reply σ α}, (Act.request ask).Steady →
        Act.Blind (fun _ _ => True) (Act.request ask) :=
        fun h w w' _ => ⟨h w w', trivial⟩
    exact ⟨fun _ _ => True, fun _ _ _ _ => trivial,
      ⟨fun label v => hblind (hsteady.closed.sideOutput label v),
        hblind hsteady.closed.listFiles, fun name =>
        hblind (hsteady.closed.loadFile name)⟩, fun _ => trivial⟩
  -- A request is answered from the state of the host, whatever runs have begun.
  · have hblind : ∀ {α : Type} (ask : σ → Reply σ α),
        Act.Blind (fun w w' => w.host = w'.host) (Act.request ask) := by
      intro α ask w w' h
      rw [Act.exec_request, Act.exec_request, h]
      exact ⟨rfl, rfl⟩
    exact ⟨fun w w' => w.host = w'.host,
      fun host' w w' h => congrArg (fun s => (host'.pause s).1) h,
      ⟨fun label v => hblind _, hblind _, fun name => hblind _⟩,
      fun w => (hquiet w.host).symm⟩

/-! ## Closing scopes

Scopes are closed with the same outcome if the worlds are related. The line
that is reached is the same as well if closing fails, since it is that of the
scope that failed; if it succeeds it is the line that each run had reached
before. -/

namespace Drive

variable {calls : Callables σ} {p p' : Progress} {w w' : World σ}

/-- A scope that is closed in related worlds: what is left is the same, and so
is the line reached if it fails. -/
theorem closeScope_blind (host : Host σ) (hR : World.Lasting R)
    (hc : calls.Blind R) (hm : p.machine = p'.machine) (hw : R w w') :
    let (r, q, v) := (closeScope host calls).exec p w
    let (r', q', v') := (closeScope host calls).exec p' w'
    r = r' ∧ q.machine = q'.machine ∧ R v v' ∧
    (r ≠ .ok () → q.lastLine = q'.lastLine) := by
  have hblind := closeScope_closed (Act.blind_closed R) (blind_closed hR) hc
    host p p' w w' hm hw
  unfold outcome at hblind
  have hscopes : p'.scopes = p.scopes := congrArg Machine.scopes hm.symm
  cases hs : p.scopes with
  | nil =>
    rw [exec_closeScope_nil hs, exec_closeScope_nil (hscopes.trans hs)]
    exact ⟨rfl, hm, hw, fun hne => absurd rfl hne⟩
  | cons s outer =>
    rw [exec_closeScope_cons hs,
      exec_closeScope_cons (hscopes.trans hs)] at hblind ⊢
    rcases h₁ : (collect calls s).exec
      { p with machine := { p.machine with scopes := outer } }
      (w.pause host) with ⟨r, q, v⟩
    rcases h₂ : (collect calls s).exec
      { p' with machine := { p'.machine with scopes := outer } }
      (w'.pause host) with ⟨r', q', v'⟩
    rw [h₁, h₂] at hblind
    rcases r with e | _ <;> rcases r' with e' | _ <;> obtain ⟨heq, hv⟩ :=
      hblind <;>
      obtain ⟨hr, hm'⟩ := Prod.mk.inj heq
    -- A scope that fails has its own line in either world.
    · exact ⟨hr, hm', hv, fun _ => rfl⟩
    · cases hr
    · cases hr
    · exact ⟨rfl, hm', hv, fun hne => absurd rfl hne⟩

/-- **Scopes are closed alike in related worlds.** -/
theorem closeScopes_blind (host : Host σ) (hR : World.Lasting R)
    (hc : calls.Blind R) (n : Nat) (hm : p.machine = p'.machine) (hw : R w w') :
    let (r, q, _) := (closeScopes host calls n).exec p w
    let (r', q', _) := (closeScopes host calls n).exec p' w'
    r = r' ∧ q.machine = q'.machine ∧
    (r ≠ .ok () → q.lastLine = q'.lastLine) := by
  induction n generalizing p p' w w' with
  | zero => exact ⟨rfl, hm, fun hne => absurd rfl hne⟩
  | succ n ih =>
    have hfirst := closeScope_blind host hR hc hm hw
    unfold closeScopes
    rw [exec_bind, exec_bind]
    rcases h₁ : (closeScope host calls).exec p w with ⟨r, q, v⟩
    rcases h₂ : (closeScope host calls).exec p' w' with ⟨r', q', v'⟩
    rw [h₁, h₂] at hfirst
    obtain ⟨rfl, hm', hv, hline⟩ := hfirst
    cases r with
    | error e => exact ⟨rfl, hm', fun _ => hline nofun⟩
    | ok _ => exact ih hm' hv

theorem closeTo_blind (host : Host σ) (hR : World.Lasting R)
    (hc : calls.Blind R) (depth : Nat) (p p' : Progress)
    (hm : p.machine = p'.machine) (hw : R w w') :
    let (r, q, _) := (closeTo host calls depth).exec p w
    let (r', q', _) := (closeTo host calls depth).exec p' w'
    r = r' ∧ q.machine = q'.machine ∧
    (r ≠ .ok () → q.lastLine = q'.lastLine) := by
  have hscopes : p'.scopes = p.scopes := congrArg Machine.scopes hm.symm
  rw [exec_closeTo, exec_closeTo, hscopes]
  exact closeScopes_blind host hR hc _ hm hw

end Drive

end StreamScript
