import StreamScript.Proofs.Layers

/-!
# No branch is missing

A branch that is looked up and not there would be an error of its own. No run
makes it. Between two lines every leaf is there, and so are all children of the
branches that open scopes were opened on, since they are the layers of the
arena. While a scope is closed there is less: some branches have been folded
into already. But folding takes children away and no branch, so that all
children that are left are still there (`Arena.Whole`).

The rest of a run does not look up branches at all, and its errors are those of
operations on values, of the host, and of lines that fit no form.
-/

namespace StreamScript

variable {σ : Type} {host : Host σ} {calls : Callables σ} {token : Option Nat}

/-- An error that tells of a branch that is not there. -/
def RunError.isTask : RunError → Bool
  | .task _ => true
  | _ => false

/-- Operations on values know nothing of branches. -/
theorem RunError.isTask_eq_false_of_isOrdinary {e : RunError}
    (h : e.isOrdinary = true) :
    e.isTask = false := by
  cases e with
  | task => cases h
  | _ => rfl

/-- **A result that no missing branch has spoilt.** -/
abbrev Finds {α : Type} (r : Except RunError α) : Prop :=
  FailsOnly (fun e => e.isTask = false) r

/-- An act that looks up no branch that is not there. -/
def Act.Finds {α : Type} (x : Act σ α) : Prop :=
  ∀ w, StreamScript.Finds (x.exec w).1

/-! ## Acts

Nothing that happens on one branch looks up another. So acts miss no branch as
long as the calls in them miss none, and hosts are never asked about branches. -/

/-- To miss no branch is kept by sequencing. -/
theorem Act.finds_closed : OrdinarilyClosed fun x _ : Act σ _ => Finds x where
  pure a _ := .ok a
  throw _ h _ := .error (RunError.isTask_eq_false_of_isOrdinary h)
  bind {_ _ x _ f _} hx hf w := by
    have hw := hx w
    rw [exec_bind]
    rcases h : x.exec w with ⟨e | a, w'⟩ <;> rw [h] at hw
    · exact .error (hw e rfl)
    · exact hf a w'

theorem Act.finds_request {α : Type} (ask : σ → Reply σ α) :
    (Act.request ask).Finds := by
  intro w
  rw [exec_request]
  dsimp only
  cases (ask w.host).answer with
  | ok a => exact .ok a
  | error reason => exact .error rfl

theorem Host.finds_closed (host : Host σ) : host.Closed Act.Finds where
  sideOutput label v := Act.finds_request (host.sideOutput label v)
  listFiles := Act.finds_request host.listFiles
  loadFile name := Act.finds_request (host.loadFile name)

/-- Calls that miss no branch, one by one. -/
abbrev Callables.Find (calls : Callables σ) : Prop :=
  Callables.Related (fun x _ => Act.Finds x) calls calls

/-! ## Arenas

Branches are looked up by their numbers, and a number that is too large finds
none. A line looks up the leaves and what they hang from, and a fold looks up
the children of a branch. All of them are numbers of branches in an arena that
is in order; what has to be shown is that this is still so in the middle of a
fold. -/

namespace Arena

variable {a : Arena} {i : Nat}

/-- **An arena in which all children are there.** -/
def Whole (a : Arena) : Prop :=
  ∀ i, ∀ c ∈ a.childrenOf i, c < a.branches.size

/-- The scope of a branch that is there can be put together: what it hangs from
is there as well. -/
theorem exists_scopeOf (h : i < a.branches.size) :
    ∃ scope, a.scopeOf i = .ok scope :=
  ⟨_, scopeOf_eq (Array.getElem?_eq_getElem h)⟩

/-- What has become of the children of a branch can be found out. -/
theorem Whole.exists_yieldsOf (h : a.Whole) (hi : i < a.branches.size) :
    ∃ yields, a.yieldsOf i = .ok yields := by
  have hchildren := h i
  unfold childrenOf at hchildren
  unfold yieldsOf branch
  rw [Array.getElem?_eq_getElem hi] at hchildren ⊢
  show ∃ yields,
    (a.branches[i].children.mapM fun child => (a.branch child).map Branch.yield)
    = .ok yields
  change ∀ c ∈ a.branches[i].children, c < a.branches.size at hchildren
  generalize a.branches[i].children = ids at hchildren
  induction ids with
  | nil => exact ⟨[], rfl⟩
  | cons c ids ih =>
    obtain ⟨hc, hids⟩ := List.forall_mem_cons.1 hchildren
    obtain ⟨yields, hyields⟩ := ih hids
    refine ⟨a.branches[c].yield :: yields, ?_⟩
    rw [List.mapM_cons, hyields, branch, Array.getElem?_eq_getElem hc]
    rfl

/-- What a line does on leaves that are there. -/
theorem finds_outcomes (hc : calls.Find)
    (h : ∀ i ∈ a.leaves, i < a.branches.size) (action : Action) :
    (a.outcomes calls action).Finds := by
  refine Act.finds_closed.mapM (f := a.outcome calls action)
    (g := a.outcome calls action) a.leaves fun i hi => ?_
  obtain ⟨scope, hscope⟩ := exists_scopeOf (h i hi)
  refine Act.finds_closed.seq (fun w => ?_) fun scope =>
    action.execute_related Act.finds_closed hc scope
  rw [Act.exec_lift, hscope]
  exact .ok scope

/-- What is made of a folded value on a branch that is there. -/
theorem finds_folded (hc : calls.Find) (hi : i < a.branches.size)
    (form : ScopeForm) (yields : List Yield) :
    (a.folded calls form i yields).Finds := by
  refine Act.finds_closed.seq
    (Act.finds_closed.lift (form.kind.ordinary_fold yields)) fun v => ?_
  cases form.post with
  | none => exact Act.finds_closed.pure v
  | some post =>
    obtain ⟨scope, hscope⟩ := exists_scopeOf hi
    refine Act.finds_closed.seq (fun w => ?_) fun scope =>
      post.eval_related Act.finds_closed hc (scope.retarget v)
    rw [Act.exec_lift, hscope]
    exact .ok scope

end Arena

/-- Folding takes children away and no branch. -/
theorem Arena.Whole.foldedInto {a b : Arena} {parents : List Nat} (h : a.Whole)
    (hab : a.FoldedInto b parents) : b.Whole := by
  intro i c hc
  rw [hab.childrenOf_eq] at hc
  rw [hab.size_eq]
  split at hc
  · cases hc
  · exact h i c hc

/-- **Between two lines all children are there**: only branches that scopes
were opened on have any, and theirs are layers. -/
theorem Machine.Grown.whole {m : Machine} (h : m.Grown) : m.arena.Whole := by
  intro i c hc
  by_cases hi : i < m.arena.branches.size
  · obtain hleaf | ⟨s, hs, hparent⟩ := h.layered.mem_or_exists hi
    · rw [h.childless i hleaf] at hc
      cases hc
    · exact h.layered.child_lt_size hs hparent hc
  · unfold Arena.childrenOf at hc
    rw [Array.getElem?_eq_none (Nat.le_of_not_lt hi)] at hc
    cases hc

namespace Drive

variable {s : OpenScope} {p q : Progress} {w v : World σ}

/-! ## Closing scopes

The parents of a scope are folded into one after the other. Each fold empties
the children of one parent and leaves the arena whole, so the next one finds
its children. -/

/-- Folding into one branch. -/
theorem foldParent_finds (hc : calls.Find) (h : p.arena.Whole) (s : OpenScope)
    {i : Nat} (hi : i < p.arena.branches.size) (w : World σ) :
    Finds ((foldParent calls s i).exec p w).1 := by
  obtain ⟨yields, hyields⟩ := h.exists_yieldsOf hi
  have hfolded := Arena.finds_folded (a := p.arena.drain i) hc
    (Arena.size_drain p.arena i ▸ hi) s.form yields w
  rw [exec_foldParent, hyields]
  dsimp only
  rcases hf : ((p.arena.drain i).folded calls s.form i yields).exec
    w with ⟨e | x, w'⟩ <;>
    rw [hf] at hfolded
  · exact .error (hfolded e rfl)
  · exact .ok ()

/-- **Folding into branches that are there** misses none. -/
theorem foldParents_finds (hc : calls.Find) (s : OpenScope) {parents : List Nat}
    (hdown : p.arena.Downward) (h : p.arena.Whole)
    (hlt : ∀ i ∈ parents, i < p.arena.branches.size) (w : World σ) :
    Finds ((foldParents calls s parents).exec p w).1 := by
  induction parents generalizing p w with
  | nil => exact .ok ()
  | cons i parents ih =>
    obtain ⟨hi, hrest⟩ := List.forall_mem_cons.1 hlt
    have hfirst := foldParent_finds hc h s hi w
    unfold foldParents
    rw [exec_bind]
    rcases hf : (foldParent calls s i).exec p w with ⟨e | _, q, v⟩ <;>
        rw [hf] at hfirst
    · exact .error (hfirst e rfl)
    · have hfolded := foldParent_foldedInto hdown hf
      refine ih hfolded.downward (h.foldedInto hfolded) (fun j hj => ?_) v
      rw [hfolded.size_eq]
      exact hrest j hj

/-- **Closing a scope** misses no branch. -/
theorem closeScope_finds (hc : calls.Find) (host : Host σ) (h : p.machine.Grown)
    (w : World σ) :
    Finds ((closeScope host calls).exec p w).1 := by
  cases hs : p.scopes with
  | nil =>
    rw [exec_closeScope_nil hs]
    exact .ok ()
  | cons s outer =>
    have hlayered := h.layered
    rw [show p.machine.scopes = s :: outer from hs] at hlayered
    obtain ⟨hbelow, hmark, -⟩ := hlayered.of_cons
    have hlt : ∀ i ∈ s.parents, i < p.arena.branches.size := fun i hi =>
      Nat.lt_of_lt_of_le (hbelow.lt_size i hi) hmark
    let p' : Progress :=
      { p with machine := { p.machine with scopes := outer } }
    have hfold :=
      foldParents_finds (p := p') hc s h.downward h.whole hlt (w.pause host)
    rw [exec_closeScope_cons hs, exec_collect]
    rcases hf : (foldParents calls s s.parents).exec p' (w.pause host) with
      ⟨e | _, q, v⟩ <;>
      rw [hf] at hfold
    · exact .error (hfold e rfl)
    · exact .ok ()

/-- Between two scopes that are closed the machine is as between two lines. -/
theorem closeScopes_finds (hc : calls.Find) (host : Host σ) (n : Nat)
    (h : p.machine.Grown) (w : World σ) :
    Finds ((closeScopes host calls n).exec p w).1 := by
  induction n generalizing p w with
  | zero => exact .ok ()
  | succ n ih =>
    have hfirst := closeScope_finds hc host h w
    unfold closeScopes
    rw [exec_bind]
    rcases hf : (closeScope host calls).exec p w with ⟨e | _, q, v⟩ <;>
        rw [hf] at hfirst
    · exact .error (hfirst e rfl)
    · exact ih (closeScope_grown h hf) v

theorem closeTo_finds (hc : calls.Find) (h : p.machine.Grown) {depth : Nat}
    {r : Except RunError Unit}
    (hclose : (closeTo host calls depth).exec p w = (r, q, v)) :
    Finds r := by
  have hfinds := closeScopes_finds hc host (p.scopes.length - depth) h w
  rwa [← exec_closeTo, hclose] at hfinds

/-! ## Lines

A line is taken on a machine whose scopes have been closed, and that is in
order. -/

/-- The leaves of such a machine are there, and the scope of each can be put
together. -/
theorem step_finds (hc : calls.Find) (host : Host σ) (x : Placed Step)
    (h : p.machine.Grown) (w : World σ) :
    Finds ((step host calls x).exec p w).1 := by
  cases hx : x.content with
  | blank =>
    unfold step stepWith
    rw [hx]
    exact .ok false
  | invalid e =>
    rw [exec_step_invalid hx]
    exact .error rfl
  | act action =>
    have houtcomes :=
      Arena.finds_outcomes hc h.layered.lt_size action (w.pause host)
    rw [exec_step_act hx]
    rcases ho : (p.arena.outcomes calls action).exec (w.pause host) with
      ⟨e | outcomes, w'⟩ <;>
      rw [ho] at houtcomes
    · exact .error (houtcomes e rfl)
    · exact .ok _

theorem take_finds (hc : calls.Find) (host : Host σ) (x : Placed Step)
    (h : p.machine.Grown) (w : World σ) :
    Finds ((take host calls x).exec p w).1 := by
  rw [exec_take]
  rcases hclose : (closeTo host calls x.depth).exec p w with ⟨e | _, q, v⟩
  · exact .error (closeTo_finds hc h hclose e rfl)
  · have hgrown := closeTo_grown h hclose
    exact step_finds (p := { q with lastLine := x.line }) hc host x hgrown v

/-- **A run of lines misses no branch.** -/
theorem lines_finds (hc : calls.Find) (host : Host σ) (token : Option Nat)
    (l : List (Placed Step)) (h : p.machine.Grown) (w : World σ) :
    Finds ((lines host calls token l).exec p w).1 := by
  obtain ⟨l', p', w', hreaches, hends⟩ :=
    exists_reaches_ends host calls token l p w
  have hgrown := hreaches.grown h
  generalize (lines host calls token l).exec p w = o at hends
  cases hends with
  | finished hclose => exact (closeTo_finds hc hgrown hclose).map _
  | @failed x _ _ _ _ _ e hs ht =>
    have hfinds := take_finds hc host x hgrown w'
    rw [ht] at hfinds
    exact .error (hfinds e rfl)
  | exited hs ht hclose =>
    exact (closeTo_finds hc (take_grown hs hgrown ht) hclose).map _
  | superseded hs ht hf => exact .ok _

end Drive

/-! ## Calls of functions, and programs

The body of a function is run on a machine of its own, with a root and nothing
else, so it misses no branch for the same reason. The induction is on how many
calls may still nest. -/

/-- The body of a function misses no branch. -/
theorem FunctionDef.finds_run (hc : calls.Find) (d : FunctionDef)
    (host : Host σ) (globals : Bindings Value) (target : Value)
    (arguments : List Value) :
    (d.run host calls globals target arguments).Finds := fun w =>
  failsOnly_run <| Drive.lines_finds hc host none d.body
    (Machine.grown_start target (d.locals globals arguments)) w

/-- **No call misses a branch**, however deep it nests. -/
theorem Program.find_call (p : Program) (host : Host σ)
    (globals : Bindings Value) (allowance : Nat) :
    Callables.Find ⟨p.isNullary, p.call host globals allowance⟩ := by
  have hP := Act.finds_closed (σ := σ)
  induction allowance with
  | zero =>
    refine ⟨fun _ => rfl, fun name target arguments => ?_⟩
    simp only [Program.call, Program.callWith]
    split
    · split
      · exact Builtin.call_closed hP host.finds_closed _ target arguments
      · exact hP.throw _ rfl
    · exact hP.seq (hP.lift (ordinary_checkArity _ _ _ _)) fun _ =>
        hP.throw _ rfl
  | succ allowance ih =>
    refine ⟨fun _ => rfl, fun name target arguments => ?_⟩
    simp only [Program.call, Program.callWith]
    split
    · split
      · exact Builtin.call_closed hP host.finds_closed _ target arguments
      · exact hP.throw _ rfl
    · next d _ =>
      exact hP.seq (hP.lift (ordinary_checkArity _ _ _ _)) fun _ =>
        d.finds_run ih host globals target arguments

/-- **No run misses a branch.** -/
theorem Program.finds_run (p : Program) (host : Host σ)
    (globals : Bindings Value) (input : Value) (w : World σ) {r : RunResult}
    (hr : ((p.run host globals input).run w).1 = some r) (reason : String) :
    r.error ≠ some (.task reason) := by
  intro he
  have hfinds := Drive.lines_finds (p.find_call host globals callLimit) host
    (some (w.generation + 1)) p.steps
    (Machine.grown_start input globals) w.begin
  have htask : (RunError.task reason).isTask = false :=
    error_of_run hfinds hr he
  cases htask

end StreamScript
