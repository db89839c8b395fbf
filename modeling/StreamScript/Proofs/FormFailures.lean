import StreamScript.Proofs.Closure

/-!
# Programs without errors of form

A line that fits no form is remembered where it stands, and is an error of the
run that gets to it. Nothing else makes an error of this kind: not the
operations on values, not the host, not the calls of functions but for the
lines in their bodies. So a program that has no such line, in itself or in the
body of a function, has no run that fails for one (`Program.fits_run`).

The proof does not go through runs again. Being without such an error is kept
by everything that acts and drives are made of, and whatever is kept so holds
of whole runs; all that is left to look at are the lines themselves.
-/

namespace StreamScript

variable {σ α : Type}

/-- **An act that does not fail for a line without a form**, in any world. -/
def Act.Fit (x : Act σ α) : Prop :=
  ∀ w, Fits (x.exec w).1

/-- **A drive that does not fail for a line without a form**, wherever it
begins. -/
def Drive.Fit (d : Drive σ α) : Prop :=
  ∀ p w, Fits (d.exec p w).1

/-! ## What fits is kept

Acts and drives that fit are closed under what runs are made of. The host is
asked and may refuse, but its refusals are errors of its own. A line that is
blamed for an error changes the error in nothing. -/

theorem Act.fit_closed : Closed fun x _ : Act σ _ => Fit x where
  pure a _ := .ok a
  throw _ h _ := .error h
  bind {_ _ x _ f _} hx hf w := by
    have hw := hx w
    rw [exec_bind]
    rcases h : x.exec w with ⟨e | a, w'⟩ <;> rw [h] at hw
    · exact .error (hw e rfl)
    · exact hf a w'

theorem Drive.fit_closed : Closed (σ := σ) Act.Fit Fit where
  pure a _ _ := .ok a
  bind {_ _ d f} hd hf p w := by
    have hw := hd p w
    rw [exec_bind]
    rcases h : d.exec p w with ⟨e | a, q, w'⟩ <;> rw [h] at hw
    · exact .error (hw e rfl)
    · exact hf a q w'
  machine _ _ := .ok _
  become _ _ _ := .ok _
  arrive _ _ _ := .ok _
  pause _ _ _ := .ok _
  perform hact _ w := hact w
  blame {_ d} line hd p w := by
    have hw := hd p w
    rw [exec_blame]
    rcases h : d.exec p w with ⟨e | a, q, w'⟩ <;> rw [h] at hw <;> exact hw

/-- A refusal of the host is an error of its own. -/
theorem Act.fit_request (ask : σ → Reply σ α) : (Act.request ask).Fit := by
  intro w
  rw [exec_request]
  dsimp only
  cases (ask w.host).answer with
  | ok a => exact .ok a
  | error reason => exact .error rfl

theorem Host.fit_closed (host : Host σ) : host.Closed Act.Fit where
  sideOutput label v := Act.fit_request (host.sideOutput label v)
  listFiles := Act.fit_request host.listFiles
  loadFile name := Act.fit_request (host.loadFile name)

/-- A body that does not fail so as a run of lines does not as a call. A call
hands on the error of its body, or the value that the body has left. -/
theorem FunctionDef.fit_run {d : FunctionDef} {host : Host σ}
    {calls : Callables σ} (h : (Drive.lines host calls none d.body).Fit)
    (globals : Bindings Value) (target : Value) (arguments : List Value) :
    (d.run host calls globals target arguments).Fit :=
  fun w => failsOnly_run (h (.start target (d.locals globals arguments)) w)

namespace Program

variable {p : Program}

/-- What is said in a program is said by a line of its own or in the body of a
function. -/
theorem mem_allSteps_iff {s : Placed Step} (hs : s.content.isBlank = false) :
    s ∈ p.allSteps ↔ s ∈ p.steps ∨ ∃ d ∈ p.functions, s ∈ d.body := by
  unfold allSteps steps functions
  rw [List.mem_flatMap, List.mem_map]
  constructor
  · rintro ⟨⟨_ | d, tabDepth, depth, line⟩, hx, h⟩
    · exact .inl ⟨_, hx, (List.mem_singleton.1 h).symm⟩
    · exact .inr ⟨d, List.mem_filterMap.2 ⟨_, hx, rfl⟩, h⟩
  · rintro (⟨⟨_ | d, tabDepth, depth, line⟩, hx, rfl⟩ | ⟨d, hd, h⟩)
    · exact ⟨_, hx, List.mem_singleton.2 rfl⟩
    · cases hs
    · obtain ⟨⟨_ | d', tabDepth, depth, line⟩, hx, hitem⟩ :=
        List.mem_filterMap.1 hd
      · cases hitem
      · obtain rfl := Option.some.inj hitem
        exact ⟨_, hx, h⟩

/-- A program without a line that fits no form has none in either place. -/
theorem admits_of_fitting (h : ∀ s ∈ p.allSteps, ∀ e, s.content ≠ .invalid e)
    {s : Placed Step} (hs : s ∈ p.steps ∨ ∃ d ∈ p.functions, s ∈ d.body) :
    Drive.Admits (σ := σ) Drive.Fit s := by
  intro e he
  have hblank : s.content.isBlank = false := by
    rw [he]
    rfl
  exact absurd he (h s ((mem_allSteps_iff hblank).2 hs) e)

/-- **No call fails for a line without a form** if no body has one. -/
theorem fit_callables (h : ∀ s ∈ p.allSteps, ∀ e, s.content ≠ .invalid e)
    (host : Host σ) (globals : Bindings Value) :
    Callables.Related (fun x _ => Act.Fit x) (p.callables host globals)
      (p.callables host globals) :=
  p.call_closed Act.fit_closed Drive.fit_closed host.fit_closed
    (fun _ _ => .ok _) (fun _ _ globals target arguments hlines =>
      FunctionDef.fit_run hlines globals target arguments)
    (fun d hd _ hs => admits_of_fitting h (.inr ⟨d, hd, hs⟩)) globals callLimit

/-- **No run fails for a line without a form** if the program has none. -/
theorem fits_run (h : ∀ s ∈ p.allSteps, ∀ e, s.content ≠ .invalid e)
    (host : Host σ) (globals : Bindings Value) (input : Value) (w : World σ)
    {r : RunResult} (hr : ((p.run host globals input).run w).1 = some r)
    (e : ParseError) :
    r.error ≠ some (.invalid e) := by
  have hfit :
      (Drive.lines host (p.callables host globals)
        (some (w.generation + 1)) p.steps).Fit :=
    Drive.lines_closed Act.fit_closed Drive.fit_closed
      (fit_callables h host globals) host (fun _ _ => .ok _) fun _ hs =>
      admits_of_fitting h (.inl hs)
  intro he
  have hinvalid : (RunError.invalid e).isInvalid = false :=
    error_of_run (hfit _ _) hr he
  cases hinvalid

end Program

end StreamScript
