import StreamScript.Proofs.Effects
import StreamScript.Proofs.SortFailures

/-!
# What every run keeps

Many facts about a run are about all of its effects at once: that its result
does not depend on the world, that the world only grows older, that two ways
of calling functions make no difference. Each would need the same walk through
expressions, leaves, scopes and lines. The walk is made here, once, for any
relation between acts that holds of what does nothing, of an error, and of
acts one after the other if it holds of each (`Act.Closed`), and for any
relation between drives of the same kind (`Drive.Coupled`). The two that are
related may even have hosts with states of different kinds. A line that fits no
form is an error of lines alone, so that nothing is asked about it of acts.

What is left to say each time is what it says of the primitives, and of the
calls of functions. Where it is said of single drives (`Drive.Closed`), each is
related to any other.
-/

namespace StreamScript

variable {σ τ : Type}

/-! ## Acts

An act is what happens on one branch: it asks the host, calls functions and
fails. Sequencing, a value alone and an error are all that the definitions put
acts together from, so a relation that holds of these three holds of every
expression and of every line on a branch, once it holds of the calls.

Two kinds of errors are kept apart. Operations on values fail with ordinary
errors, and a relation may be asked to hold of those alone
(`Act.OrdinarilyClosed`). An arena that is out of order fails with an error of
its own, which no expression raises; a relation for whole lines is asked to
hold of that as well (`Act.Closed`). -/

/-- **A relation that sequencing keeps**, among acts whose errors are those of
operations on values. Expressions, lines and built-in functions can only fail
in such ways by themselves. What else they fail with they have from the
functions they call, and about those there is a hypothesis. -/
structure Act.OrdinarilyClosed (R : ∀ {α : Type}, Act σ α → Act τ α → Prop) :
    Prop where
  pure : ∀ {α : Type} (a : α), R (pure a) (pure a)
  throw : ∀ {α : Type} (e : RunError), e.isOrdinary = true →
    R (throw e : Act σ α) (throw e)
  bind :
    ∀ {α β : Type} {x : Act σ α} {y : Act τ α}
      {f : α → Act σ β} {g : α → Act τ β},
    R x y → (∀ a, R (f a) (g a)) → R (x >>= f) (y >>= g)

/-- **A relation that sequencing keeps**, also if a branch is not there. A line
that is executed on all leaves looks each of them up. That the lookup cannot
fail is another theorem, and one that is proved with the lemmas below; so here
it may. -/
structure Act.Closed (R : ∀ {α : Type}, Act σ α → Act τ α → Prop) : Prop where
  pure : ∀ {α : Type} (a : α), R (pure a) (pure a)
  throw : ∀ {α : Type} (e : RunError), e.isInvalid = false →
    R (throw e : Act σ α) (throw e)
  bind :
    ∀ {α β : Type} {x : Act σ α} {y : Act τ α}
      {f : α → Act σ β} {g : α → Act τ β},
    R x y → (∀ a, R (f a) (g a)) → R (x >>= f) (y >>= g)

/-- Two ways of calling functions, related call by call. -/
structure Callables.Related (R : ∀ {α : Type}, Act σ α → Act τ α → Prop)
    (c : Callables σ) (d : Callables τ) : Prop where
  isNullary : ∀ name, c.isNullary name = d.isNullary name
  call : ∀ name target arguments,
    R (c.call name target arguments) (d.call name target arguments)

section Acts

variable {R : ∀ {α : Type}, Act σ α → Act τ α → Prop} {c : Callables σ}
    {d : Callables τ}

theorem Act.Closed.ordinarily (hR : Act.Closed R) : Act.OrdinarilyClosed R where
  pure a := hR.pure a
  throw e he := hR.throw e (RunError.isInvalid_eq_false_of_isOrdinary he)
  bind h hf := hR.bind h hf

/-- What is no act at all is related to itself. -/
theorem Act.OrdinarilyClosed.lift (hR : Act.OrdinarilyClosed R) {α : Type}
    {r : Except RunError α} (hr : Ordinary r) :
    R (liftM r : Act σ α) (liftM r) := by
  cases r with
  | ok a => exact hR.pure a
  | error e => exact hR.throw e (hr e rfl)

theorem Act.Closed.lift (hR : Act.Closed R) {α : Type} {r : Except RunError α}
    (hr : Fits r) :
    R (liftM r : Act σ α) (liftM r) := by
  cases r with
  | ok a => exact hR.pure a
  | error e => exact hR.throw e (hr e rfl)

/-- A list is gone through alike if its elements are. -/
theorem Act.OrdinarilyClosed.mapM (hR : Act.OrdinarilyClosed R) {α β : Type}
    {f : α → Act σ β} {g : α → Act τ β} (l : List α)
    (h : ∀ a ∈ l, R (f a) (g a)) : R (l.mapM f) (l.mapM g) := by
  induction l with
  | nil =>
    rw [List.mapM_nil, List.mapM_nil]
    exact hR.pure []
  | cons a l ih =>
    rw [List.mapM_cons, List.mapM_cons]
    refine hR.bind (h a List.mem_cons_self) fun b => ?_
    exact hR.bind (ih fun a ha => h a (List.mem_cons_of_mem _ ha)) fun bs =>
      hR.pure (b :: bs)

namespace Expr

/-- An operator that needs both operands. -/
theorem eval_binary {c : Callables σ} {scope : Scope} {op : BinaryOp}
    {l r : Expr} (h : op ∉ [BinaryOp.method, .member, .and, .or]) :
    (Expr.binary l op r).eval c scope = (do
      let x ← l.eval c scope
      let y ← r.eval c scope
      applyBinary op x y) := by
  cases op <;> first | rfl | simp at h

/-- The member operator with a key that is not a bare name. -/
theorem eval_member {c : Callables σ} {scope : Scope} {l r : Expr}
    (h : ∀ key, r ≠ .name key) :
    (Expr.binary l .member r).eval c scope = (do
      let x ← l.eval c scope
      let y ← r.eval c scope
      applyBinary .member x y) := by
  cases r <;> first | rfl | exact absurd rfl (h _)

theorem resolve_related (hR : Act.OrdinarilyClosed R)
    (hc : Callables.Related R c d) (scope : Scope) (name : String) :
    R (resolve c scope name) (resolve d scope name) := by
  unfold resolve
  rw [← hc.isNullary]
  cases scope.lookup name with
  | some v => exact hR.pure v
  | none =>
    cases c.isNullary name with
    | true => exact hc.call name scope.stream []
    | false => exact hR.throw (.unknownName name) rfl

/-- Operands that are evaluated alike, under any operator. -/
theorem eval_binary_related (hR : Act.OrdinarilyClosed R) {l r : Expr}
    (op : BinaryOp) (hl : ∀ scope, R (l.eval c scope) (l.eval d scope))
    (hr : ∀ scope, R (r.eval c scope) (r.eval d scope)) (scope : Scope) :
    R ((Expr.binary l op r).eval c scope) ((Expr.binary l op r).eval d scope) := by
  have plain : ∀ {x : Act σ Value} {y : Act τ Value}, R x y → ∀ op,
      R (x >>= fun v => r.eval c scope >>= fun w => liftM (applyBinary op v w))
        (y >>= fun v => r.eval d scope >>= fun w =>
          liftM (applyBinary op v w)) :=
    fun h op => hR.bind h fun v => hR.bind (hr scope) fun w =>
      hR.lift (ordinary_applyBinary op v w)
  have asTruth : ∀ v : Value,
      R (liftM v.asTruth : Act σ Bool) (liftM v.asTruth) := fun v =>
    hR.lift v.ordinary_asTruth
  by_cases hop : op ∈ [BinaryOp.method, .member, .and, .or]
  -- Only these four do not evaluate both of their operands in the scope that
  -- is given.
  · -- `&` and `|` leave out the right operand if the left one decides, `.` and
    -- `:` read it in another scope or not at all.
    rcases op with _ | _ | _ | _ | _ | _ | _ | _ | _ | _ | _ | _ | _ | _ <;>
      simp at hop
    case method =>
      exact hR.bind (hl scope) fun v => hr (scope.retarget v)
    case member =>
      by_cases hk : ∃ key, r = .name key
      · obtain ⟨key, rfl⟩ := hk
        exact hR.bind (hl scope) fun v => hR.lift (v.ordinary_member _)
      · rw [eval_member (fun key h => hk ⟨key, h⟩),
          eval_member (fun key h => hk ⟨key, h⟩)]
        exact plain (hl scope) .member
    case and =>
      refine hR.bind (hl scope) fun v => hR.bind (asTruth v) fun b => ?_
      cases b with
      | true =>
        exact hR.bind (hr scope) fun w => hR.bind (asTruth w) fun b => hR.pure _
      | false => exact hR.pure _
    case or =>
      refine hR.bind (hl scope) fun v => hR.bind (asTruth v) fun b => ?_
      cases b with
      | true => exact hR.pure _
      | false =>
        exact hR.bind (hr scope) fun w => hR.bind (asTruth w) fun b => hR.pure _
  · rw [eval_binary hop, eval_binary hop]
    exact plain (hl scope) op

mutual

/-- **Expressions keep a relation** that the calls in them keep. There is one
case for every form of expression, and each follows its definition; only in a
call is the hypothesis on the calls used. -/
theorem eval_related (hR : Act.OrdinarilyClosed R)
    (hc : Callables.Related R c d) :
    ∀ (e : Expr) (scope : Scope), R (e.eval c scope) (e.eval d scope)
  | .name n, scope => resolve_related hR hc scope n
  | .number x, _ => hR.pure (Value.number x)
  | .text s, _ => hR.pure (Value.text s)
  | .truth b, _ => hR.pure (Value.truth b)
  | .stream, scope => hR.pure scope.stream
  | .index, _ => hR.pure _
  | .group inner, scope => eval_related hR hc inner scope
  | .array items, scope => hR.bind (evalAll_related hR hc items scope) fun vs =>
    hR.pure (Value.array vs)
  | .unary op operand, scope =>
    hR.bind (eval_related hR hc operand scope) fun v =>
      hR.lift (ordinary_applyUnary op v)
  | .call f arguments, scope =>
    hR.bind (evalAll_related hR hc arguments scope) fun vs =>
      hc.call f scope.stream vs
  | .binary l op r, scope =>
    eval_binary_related hR op (eval_related hR hc l)
      (eval_related hR hc r) scope

/-- The same for several expressions. -/
theorem evalAll_related (hR : Act.OrdinarilyClosed R)
    (hc : Callables.Related R c d) :
    ∀ (es : List Expr) (scope : Scope),
      R (evalAll c scope es) (evalAll d scope es)
  | [], _ => hR.pure []
  | e :: es, scope =>
    hR.bind (eval_related hR hc e scope) fun v =>
      hR.bind (evalAll_related hR hc es scope) fun vs => hR.pure (v :: vs)

end

end Expr

theorem evalChain_related (hR : Act.OrdinarilyClosed R)
    (hc : Callables.Related R c d) (es : List Expr) (scope : Scope) :
    R (evalChain c scope es) (evalChain d scope es) := by
  induction es generalizing scope with
  | nil => exact hR.pure scope.stream
  | cons e es ih =>
    exact hR.bind (e.eval_related hR hc scope) fun v => ih (scope.retarget v)

theorem ScopeForm.elements_related (hR : Act.OrdinarilyClosed R)
    (hc : Callables.Related R c d) (s : ScopeForm) (scope : Scope) :
    R (s.elements c scope) (s.elements d scope) := by
  unfold ScopeForm.elements
  cases s.pre with
  | none => exact hR.lift (s.kind.ordinary_elements _)
  | some e =>
    exact hR.bind (e.eval_related hR hc scope) fun v =>
      hR.lift (s.kind.ordinary_elements v)

/-- **What a line does on one branch** keeps the relation. An action evaluates
expressions one after the other, so it is sequencing and nothing else. -/
theorem Action.execute_related (hR : Act.OrdinarilyClosed R)
    (hc : Callables.Related R c d) (action : Action) (scope : Scope) :
    R (action.execute c scope) (action.execute d scope) := by
  match action with
  | .exit => exact hR.pure _
  | .eval e => exact hR.bind (e.eval_related hR hc scope) fun v => hR.pure _
  | .store name e => exact hR.bind (e.eval_related hR hc scope) fun v => hR.pure _
  | .scope s | .storeScope _ s =>
    exact hR.bind (s.elements_related hR hc scope) fun vs => hR.pure _
  | .chain head middle (.expr e) =>
    exact hR.bind (evalChain_related hR hc _ scope) fun v => hR.pure _
  | .chain head middle (.scope s) =>
    exact hR.bind (evalChain_related hR hc _ scope) fun v =>
      hR.bind (s.elements_related hR hc _) fun vs => hR.pure _

/-- One leaf: its scope is read off the arena, which may be out of order, and
the line is executed in it. -/
theorem Arena.outcome_related (hR : Act.Closed R) (hc : Callables.Related R c d)
    (a : Arena) (action : Action) (leaf : Nat) :
    R (a.outcome c action leaf) (a.outcome d action leaf) :=
  hR.bind (hR.lift (a.fits_scopeOf leaf)) fun scope =>
    action.execute_related hR.ordinarily hc scope

/-- **What a line does on all leaves** keeps the relation. The leaves are gone
through in their order. For other orders see `Schedule.tasks_related`. -/
theorem Arena.outcomes_related (hR : Act.Closed R)
    (hc : Callables.Related R c d) (a : Arena) (action : Action) :
    R (a.outcomes c action) (a.outcomes d action) :=
  hR.ordinarily.mapM a.leaves fun leaf _ => a.outcome_related hR hc action leaf

/-- **Two ways to do the tasks of a line** that are related if the calls are.
The relation is asked of every arena and every action, as the tasks of a run
are those of whatever line it has come to. -/
def Tasks.Related (R : ∀ {α : Type}, Act σ α → Act τ α → Prop) (tasks : Tasks σ)
    (tasks' : Tasks τ) : Prop :=
  ∀ {c : Callables σ} {d : Callables τ}, Callables.Related R c d → ∀ a action,
    R (tasks a c action) (tasks' a d action)

/-- To do the leaves one after the other is such a way. -/
theorem Tasks.outcomes_related (hR : Act.Closed R) :
    Tasks.Related R Arena.outcomes Arena.outcomes :=
  fun hc a action => a.outcomes_related hR hc action

/-- What is made of a folded value. -/
theorem Arena.folded_related (hR : Act.Closed R) (hc : Callables.Related R c d)
    (a : Arena) (form : ScopeForm) (parent : Nat) (yields : List Yield) :
    R (a.folded c form parent yields) (a.folded d form parent yields) := by
  refine hR.bind (hR.lift (form.kind.ordinary_fold yields).fits) fun v => ?_
  cases form.post with
  | none => exact hR.pure v
  | some post =>
    exact hR.bind (hR.lift (a.fits_scopeOf parent)) fun scope =>
      post.eval_related hR.ordinarily hc (scope.retarget v)

end Acts

/-! ## Drives

A drive moves the machine as well. Its primitives are few: to read and to
change the machine, to arrive at a line, to pause, to perform an act, and to
put the blame for an error on a line. What is asked of a relation is that it
holds of these, of sequences of them, and of acts that are related
(`Drive.Coupled`).

The two sides may do the tasks of a line in different ways, if these ways are
related. This is how runs that differ in the order of their leaves come to be
compared by the same lemmas as runs that differ in their hosts. -/

/-- **A relation between drives that sequencing keeps**, with the relation
between acts that it is fit for, and with the hosts that are asked. A drive is
built of what it does with its own progress, pauses of the host, the acts it
performs, sequencing, and the blame for errors. Each has its fields. -/
structure Drive.Coupled (R : ∀ {α : Type}, Act σ α → Act τ α → Prop)
    (S : ∀ {α : Type}, Drive σ α → Drive τ α → Prop) (host : Host σ)
    (host' : Host τ) :
    Prop where
  pure : ∀ {α : Type} (a : α), S (pure a) (pure a)
  bind :
    ∀ {α β : Type} {x : Drive σ α} {y : Drive τ α} {f : α → Drive σ β}
      {g : α → Drive τ β},
    S x y → (∀ a, S (f a) (g a)) → S (x >>= f) (y >>= g)
  machine : S machine machine
  become : ∀ m, S (become m) (become m)
  arrive : ∀ line, S (arrive line) (arrive line)
  pause : S (pause host) (pause host')
  perform : ∀ {α : Type} {x : Act σ α} {y : Act τ α}, R x y →
    S (perform x) (perform y)
  blame : ∀ {α : Type} {x : Drive σ α} {y : Drive τ α} (line : Nat),
    S x y → S (blame line x) (blame line y)

/-- **A property of drives that sequencing keeps**, with the acts it is fit
for. It is the special case of a coupling in which both drives are the same. -/
structure Drive.Closed (P : ∀ {α : Type}, Act σ α → Prop)
    (Q : ∀ {α : Type}, Drive σ α → Prop) : Prop where
  pure : ∀ {α : Type} (a : α), Q (pure a)
  bind : ∀ {α β : Type} {x : Drive σ α} {f : α → Drive σ β}, Q x →
    (∀ a, Q (f a)) → Q (x >>= f)
  machine : Q machine
  become : ∀ m, Q (become m)
  arrive : ∀ line, Q (arrive line)
  pause : ∀ host, Q (pause host)
  perform : ∀ {α : Type} {act : Act σ α}, P act → Q (perform act)
  blame : ∀ {α : Type} {d : Drive σ α} (line : Nat), Q d → Q (blame line d)

/-- A property of drives, read as a relation to whatever drive. -/
theorem Drive.Closed.coupled {P : ∀ {α : Type}, Act σ α → Prop}
    {Q : ∀ {α : Type}, Drive σ α → Prop} (hQ : Closed P Q) (host : Host σ) :
    Coupled (fun x (_ : Act σ _) => P x) (fun d (_ : Drive σ _) => Q d) host
    host where
  pure := hQ.pure
  bind := hQ.bind
  machine := hQ.machine
  become := hQ.become
  arrive := hQ.arrive
  pause := hQ.pause host
  perform := hQ.perform
  blame := hQ.blame

/-- **A line that does not break the relation by being no line**: if it fits no
form, to fail for that keeps it. Relations that are about errors have to say
something of this one too, and some do so only for programs without such lines.
-/
def Drive.Suits (S : ∀ {α : Type}, Drive σ α → Drive τ α → Prop)
    (s : Placed Step) : Prop :=
  ∀ e, s.content = .invalid e →
    S (throw (.invalid e) : Drive σ Bool) (throw (.invalid e) : Drive τ Bool)

/-- **A line that does not break the property by being no line**: if it fits no
form, to fail for that has the property. For most properties this is trivial,
since a failing drive has them; it is not for those that speak of the errors.
-/
def Drive.Admits (Q : ∀ {α : Type}, Drive σ α → Prop) (s : Placed Step) :
    Prop :=
  ∀ e, s.content = .invalid e → Q (throw (.invalid e) : Drive σ Bool)

section Coupled

variable {R : ∀ {α : Type}, Act σ α → Act τ α → Prop}
  {S : ∀ {α : Type}, Drive σ α → Drive τ α → Prop} {host : Host σ}
  {host' : Host τ} {calls : Callables σ} {calls' : Callables τ}
  {tasks : Tasks σ} {tasks' : Tasks τ}

namespace Drive

/-- A scope is folded into its parents one after the other, and each has its
own value to be made. -/
theorem foldParents_related (hR : Act.Closed R) (hS : Coupled R S host host')
    (hc : Callables.Related R calls calls') (s : OpenScope)
    (parents : List Nat) :
    S (foldParents calls s parents) (foldParents calls' s parents) := by
  induction parents with
  | nil => exact hS.pure ()
  | cons parent parents ih =>
    refine hS.bind (hS.bind hS.machine fun m => ?_) fun _ => ih
    refine hS.bind (hS.perform (hR.lift (m.arena.fits_yieldsOf parent)))
      fun yields => ?_
    refine hS.bind (hS.become _) fun _ => ?_
    exact hS.bind (hS.perform (Arena.folded_related hR hc _ _ _ _)) fun v =>
      hS.become _

theorem collect_related (hR : Act.Closed R) (hS : Coupled R S host host')
    (hc : Callables.Related R calls calls') (s : OpenScope) :
    S (collect calls s) (collect calls' s) :=
  hS.bind (foldParents_related hR hS hc s s.parents) fun _ =>
    hS.bind hS.machine fun _ => hS.become _

theorem closeScope_related (hR : Act.Closed R) (hS : Coupled R S host host')
    (hc : Callables.Related R calls calls') :
    S (closeScope host calls) (closeScope host' calls') := by
  refine hS.bind hS.machine fun m => ?_
  cases m.scopes with
  | nil => exact hS.pure ()
  | cons s outer =>
    refine hS.bind hS.pause fun _ => hS.bind (hS.become _) fun _ => ?_
    exact hS.blame s.line (collect_related hR hS hc s)

theorem closeScopes_related (hR : Act.Closed R) (hS : Coupled R S host host')
    (hc : Callables.Related R calls calls') (n : Nat) :
    S (closeScopes host calls n) (closeScopes host' calls' n) := by
  induction n with
  | zero => exact hS.pure ()
  | succ n ih => exact hS.bind (closeScope_related hR hS hc) fun _ => ih

/-- **Closing scopes** keeps the relation. How many scopes are to be closed is
read off the progress, so the relation must let both drives see the same
number; that is the field `machine`. -/
theorem closeTo_related (hR : Act.Closed R) (hS : Coupled R S host host')
    (hc : Callables.Related R calls calls') (depth : Nat) :
    S (closeTo host calls depth) (closeTo host' calls' depth) :=
  hS.bind hS.machine fun _ => closeScopes_related hR hS hc _

/-- Executing a line. A line that fits no form fails by itself, before anything
is done on a branch; so it has to suit the relation, and no act can help. -/
theorem stepWith_related (hS : Coupled R S host host')
    (hT : Tasks.Related R tasks tasks') (hc : Callables.Related R calls calls')
    {s : Placed Step} (hs : Suits S s) :
    S (stepWith tasks host calls s) (stepWith tasks' host' calls' s) := by
  unfold stepWith
  cases hcontent : s.content with
  | blank => exact hS.pure false
  | invalid e => exact hs e hcontent
  | act action =>
    refine hS.bind hS.pause fun _ => hS.bind hS.machine fun m => ?_
    refine hS.bind (hS.perform (hT hc m.arena action)) fun outcomes => ?_
    exact hS.bind (hS.become _) fun _ => hS.pure _

/-- **Taking a line** keeps the relation. Scopes are closed, the line is
written down as the last one, and it is executed. -/
theorem takeWith_related (hR : Act.Closed R) (hS : Coupled R S host host')
    (hT : Tasks.Related R tasks tasks') (hc : Callables.Related R calls calls')
    {s : Placed Step} (hs : Suits S s) :
    S (takeWith tasks host calls s) (takeWith tasks' host' calls' s) :=
  hS.bind (closeTo_related hR hS hc s.depth) fun _ =>
    hS.bind (hS.arrive s.line) fun _ => stepWith_related hS hT hc hs

/-- **A run of lines** keeps the relation, if doing the tasks does and looking
at the token. This is the theorem for which the others are there. What a run
has in common with another one is said by choosing `R`, `S` and the hosts, and
what is to be proved about the run itself is only that they fit. -/
theorem linesWith_related (hR : Act.Closed R) (hS : Coupled R S host host')
    (hT : Tasks.Related R tasks tasks') (hc : Callables.Related R calls calls')
    {token : Option Nat}
    (ht : S (isSuperseded host token) (isSuperseded host' token))
    {l : List (Placed Step)} (hl : ∀ s ∈ l, Suits S s) :
    S (linesWith tasks host calls token l)
    (linesWith tasks' host' calls' token l) := by
  -- The lines end by closing all scopes, be it behind the last of them or
  -- behind an exit.
  have close : S (do closeTo host calls 0; return Ending.done)
      (do closeTo host' calls' 0; return Ending.done) :=
    hS.bind (closeTo_related hR hS hc 0) fun _ => hS.pure _
  induction l with
  | nil => exact close
  | cons s rest ih =>
    obtain ⟨hs, hrest⟩ := List.forall_mem_cons.1 hl
    unfold linesWith
    split
    · exact ih hrest
    · refine hS.bind (takeWith_related hR hS hT hc hs) fun exits => ?_
      split
      · exact close
      · refine hS.bind ht fun superseded => ?_
        split
        · exact hS.pure _
        · exact ih hrest

/-! ### The leaves from left to right

A run whose tasks are done in the order of the leaves is the one that most
statements are about. For it there is nothing to ask about the tasks. -/

theorem step_related (hR : Act.Closed R) (hS : Coupled R S host host')
    (hc : Callables.Related R calls calls') {s : Placed Step} (hs : Suits S s) :
    S (step host calls s) (step host' calls' s) :=
  stepWith_related hS (Tasks.outcomes_related hR) hc hs

theorem take_related (hR : Act.Closed R) (hS : Coupled R S host host')
    (hc : Callables.Related R calls calls') {s : Placed Step} (hs : Suits S s) :
    S (take host calls s) (take host' calls' s) :=
  takeWith_related hR hS (Tasks.outcomes_related hR) hc hs

theorem lines_related (hR : Act.Closed R) (hS : Coupled R S host host')
    (hc : Callables.Related R calls calls') {token : Option Nat}
    (ht : S (isSuperseded host token) (isSuperseded host' token))
    {l : List (Placed Step)} (hl : ∀ s ∈ l, Suits S s) :
    S (lines host calls token l) (lines host' calls' token l) :=
  linesWith_related hR hS (Tasks.outcomes_related hR) hc ht hl

end Drive

/-- Hosts whose answers are related, request by request. -/
structure Host.Related (R : ∀ {α : Type}, Act σ α → Act τ α → Prop)
    (host : Host σ) (host' : Host τ) : Prop where
  sideOutput : ∀ label v, R (Act.request (host.sideOutput label v))
    (Act.request (host'.sideOutput label v))
  listFiles : R (Act.request host.listFiles) (Act.request host'.listFiles)
  loadFile : ∀ name,
    R (Act.request (host.loadFile name)) (Act.request (host'.loadFile name))

/-- **Built-in functions** keep the relation. Only those that ask the host need
anything of it; the rest compute with values. There are three of the former. Of
the rest it is known with which errors they can fail
(`Builtin.ordinary_apply`). -/
theorem Builtin.call_related (hR : Act.OrdinarilyClosed R)
    (hh : host.Related R host') (b : Builtin) (target : Value)
    (arguments : List Value) :
    R (b.call host target arguments) (b.call host' target arguments) := by
  unfold Builtin.call
  refine hR.bind (hR.lift (ordinary_checkArity _ _ _ _)) fun _ => ?_
  split
  · exact hR.bind (hR.lift (ordinary_textArgument _ _)) fun label =>
      hR.bind (hh.sideOutput label target) fun _ => hR.pure _
  · exact hR.bind hh.listFiles fun names => hR.pure _
  · exact hR.bind (hR.lift (ordinary_textArgument _ _)) fun name =>
      hR.bind (hh.loadFile name) fun text => hR.pure _
  · exact hR.lift (ordinary_apply _ _ _)

/-- **Calls of functions** keep the relation, however deep they nest, if a body
that keeps it as a run of lines keeps it as a call, and no line of a body
breaks it by being no line. -/
theorem Program.callWith_related (hR : Act.Closed R)
    (hS : Drive.Coupled R S host host') (hT : Tasks.Related R tasks tasks')
    (hh : host.Related R host')
    (ht : S (Drive.isSuperseded host none) (Drive.isSuperseded host' none))
    (hrun : ∀ (d : FunctionDef) calls calls' globals target arguments,
        S (Drive.linesWith tasks host calls none d.body)
        (Drive.linesWith tasks' host' calls' none d.body) →
      R (d.runWith tasks host calls globals target arguments)
        (d.runWith tasks' host' calls' globals target arguments))
    (p : Program) (hbody : ∀ d ∈ p.functions, ∀ s ∈ d.body, Drive.Suits S s)
    (globals : Bindings Value) (allowance : Nat) :
    Callables.Related R ⟨p.isNullary, p.callWith tasks host globals allowance⟩
      ⟨p.isNullary, p.callWith tasks' host' globals allowance⟩ := by
  induction allowance with
  | zero =>
    refine ⟨fun _ => rfl, fun name target arguments => ?_⟩
    simp only [Program.callWith]
    split
    · split
      · exact Builtin.call_related hR.ordinarily hh _ target arguments
      · exact hR.throw _ rfl
    · exact hR.bind (hR.lift (ordinary_checkArity _ _ _ _).fits) fun _ =>
        hR.throw _ rfl
  | succ allowance ih =>
    refine ⟨fun _ => rfl, fun name target arguments => ?_⟩
    simp only [Program.callWith]
    split
    · split
      · exact Builtin.call_related hR.ordinarily hh _ target arguments
      · exact hR.throw _ rfl
    -- The calls in the body have less of the allowance left.
    · next d hd =>
      have hmem : d ∈ p.functions :=
        List.mem_reverse.1 (List.mem_of_find?_eq_some hd)
      refine hR.bind (hR.lift (ordinary_checkArity _ _ _ _).fits) fun _ => ?_
      refine hrun d _ _ globals target arguments ?_
      exact Drive.linesWith_related hR hS hT ih ht (hbody d hmem)

/-- The same for calls whose leaves go from left to right. -/
theorem Program.call_related (hR : Act.Closed R)
    (hS : Drive.Coupled R S host host') (hh : host.Related R host')
    (ht : S (Drive.isSuperseded host none) (Drive.isSuperseded host' none))
    (hrun : ∀ (d : FunctionDef) calls calls' globals target arguments,
      S (Drive.lines host calls none d.body)
        (Drive.lines host' calls' none d.body) →
        R (d.run host calls globals target arguments)
        (d.run host' calls' globals target arguments))
    (p : Program) (hbody : ∀ d ∈ p.functions, ∀ s ∈ d.body, Drive.Suits S s)
    (globals : Bindings Value) (allowance : Nat) :
    Callables.Related R ⟨p.isNullary, p.call host globals allowance⟩
      ⟨p.isNullary, p.call host' globals allowance⟩ :=
  p.callWith_related hR hS (Tasks.outcomes_related hR) hh ht hrun hbody globals
    allowance

end Coupled

/-! ## Properties of single runs

A property of one run is a relation that looks at its left side only. So
nothing is proved again here: each statement is the one above for a relation of
this kind (`Drive.Closed.coupled`). -/

section Drives

variable {P : ∀ {α : Type}, Act σ α → Prop} {Q : ∀ {α : Type}, Drive σ α → Prop}
  {calls : Callables σ}

namespace Drive

theorem foldParents_closed (hP : Act.Closed fun x (_ : Act σ _) => P x)
    (hQ : Closed P Q) (hc : Callables.Related (fun x _ => P x) calls calls)
    (s : OpenScope) (parents : List Nat) :
    Q (foldParents calls s parents) :=
  foldParents_related hP (hQ.coupled (.none σ)) hc s parents

theorem collect_closed (hP : Act.Closed fun x (_ : Act σ _) => P x)
    (hQ : Closed P Q) (hc : Callables.Related (fun x _ => P x) calls calls)
    (s : OpenScope) :
    Q (collect calls s) :=
  collect_related hP (hQ.coupled (.none σ)) hc s

theorem closeScope_closed (hP : Act.Closed fun x (_ : Act σ _) => P x)
    (hQ : Closed P Q) (hc : Callables.Related (fun x _ => P x) calls calls)
    (host : Host σ) :
    Q (closeScope host calls) :=
  closeScope_related hP (hQ.coupled host) hc

theorem closeScopes_closed (hP : Act.Closed fun x (_ : Act σ _) => P x)
    (hQ : Closed P Q) (hc : Callables.Related (fun x _ => P x) calls calls)
    (host : Host σ) (n : Nat) :
    Q (closeScopes host calls n) :=
  closeScopes_related hP (hQ.coupled host) hc n

/-- **Closing scopes** keeps the property. It is the theorem on couplings, for
a drive and itself. -/
theorem closeTo_closed (hP : Act.Closed fun x (_ : Act σ _) => P x)
    (hQ : Closed P Q) (hc : Callables.Related (fun x _ => P x) calls calls)
    (host : Host σ) (depth : Nat) :
    Q (closeTo host calls depth) :=
  closeTo_related hP (hQ.coupled host) hc depth

theorem step_closed (hP : Act.Closed fun x (_ : Act σ _) => P x)
    (hQ : Closed P Q) (hc : Callables.Related (fun x _ => P x) calls calls)
    (host : Host σ) {s : Placed Step} (hs : Admits Q s) :
    Q (step host calls s) :=
  step_related hP (hQ.coupled host) hc hs

/-- **Taking a line** keeps the property. Of the line only the case that it
fits no form has to be looked at. -/
theorem take_closed (hP : Act.Closed fun x (_ : Act σ _) => P x)
    (hQ : Closed P Q) (hc : Callables.Related (fun x _ => P x) calls calls)
    (host : Host σ) {s : Placed Step} (hs : Admits Q s) :
    Q (take host calls s) :=
  take_related hP (hQ.coupled host) hc hs

/-- **A run of lines** keeps the property, if looking at the token does. So
what holds of every run is proved by saying that it holds of the things that a
drive is built of. -/
theorem lines_closed (hP : Act.Closed fun x (_ : Act σ _) => P x)
    (hQ : Closed P Q) (hc : Callables.Related (fun x _ => P x) calls calls)
    (host : Host σ) {token : Option Nat} (ht : Q (isSuperseded host token))
    {l : List (Placed Step)} (hl : ∀ s ∈ l, Admits Q s) :
    Q (lines host calls token l) :=
  lines_related hP (hQ.coupled host) hc ht hl

end Drive

/-- Acts one after the other, for a property of single acts. -/
theorem Act.OrdinarilyClosed.seq
    (hP : Act.OrdinarilyClosed fun x (_ : Act σ _) => P x) {α β : Type}
    {x : Act σ α} {f : α → Act σ β} (hx : P x) (hf : ∀ a, P (f a)) :
    P (x >>= f) :=
  hP.bind (y := x) (g := f) hx hf

/-- A host whose answers have the property. -/
structure Host.Closed (P : ∀ {α : Type}, Act σ α → Prop) (host : Host σ) :
    Prop where
  sideOutput : ∀ label v, P (Act.request (host.sideOutput label v))
  listFiles : P (Act.request host.listFiles)
  loadFile : ∀ name, P (Act.request (host.loadFile name))

theorem Host.Closed.related {host : Host σ} (hh : host.Closed P) :
    host.Related (fun x (_ : Act σ _) => P x) host :=
  ⟨hh.sideOutput, hh.listFiles, hh.loadFile⟩

theorem Builtin.call_closed
    (hP : Act.OrdinarilyClosed fun x (_ : Act σ _) => P x) {host : Host σ}
    (hh : host.Closed P) (b : Builtin) (target : Value)
    (arguments : List Value) :
    P (b.call host target arguments) :=
  b.call_related hP hh.related target arguments

/-- **Calls of functions** have the property, however deep they nest, if a body
that has it as a run of lines has it as a call, and no line of a body breaks it
by being no line. -/
theorem Program.call_closed (hP : Act.Closed fun x (_ : Act σ _) => P x)
    (hQ : Drive.Closed P Q) {host : Host σ} (hh : host.Closed P)
    (ht : Q (Drive.isSuperseded host none))
    (hrun : ∀ (d : FunctionDef) calls globals target arguments,
      Q (Drive.lines host calls none d.body) →
      P (d.run host calls globals target arguments))
    (p : Program) (hbody : ∀ d ∈ p.functions, ∀ s ∈ d.body, Drive.Admits Q s)
    (globals : Bindings Value) (allowance : Nat) :
    Callables.Related (fun x _ => P x)
      ⟨p.isNullary, p.call host globals allowance⟩
      ⟨p.isNullary, p.call host globals allowance⟩ :=
  p.call_related hP (hQ.coupled host) hh.related ht
    (fun d calls _ => hrun d calls) hbody globals allowance

end Drives

/-! ## What calls and runs fail with

An error leaves a call as it has left the lines of the body, and a run as it
has left the lines of the script. What lines may fail with is therefore what
calls and runs may fail with. -/

section Fails

variable {P : RunError → Prop} {host : Host σ}

/-- A call fails with what the lines of the body fail with. -/
theorem FunctionDef.failsOnly_run {d : FunctionDef} {calls : Callables σ}
    {globals : Bindings Value} {target : Value} {arguments : List Value}
    {w : World σ} (h : FailsOnly P ((Drive.lines host calls none d.body).exec
      (.start target (d.locals globals arguments)) w).1) :
    FailsOnly P ((d.run host calls globals target arguments).exec w).1 := by
  rw [FunctionDef.exec_run]
  rcases hlines : (Drive.lines host calls none d.body).exec
    (.start target (d.locals globals arguments)) w with ⟨e | ending, q, w'⟩ <;>
    rw [hlines] at h
  · exact .error (h e rfl)
  · exact .ok _

/-- **A run fails with what its lines fail with.** The run adds nothing of its
own: it hands back the error of its lines as it is, or none if they come to
their end. -/
theorem Program.error_of_run {p : Program} {globals : Bindings Value}
    {input : Value} {w : World σ} {r : RunResult} {e : RunError}
    (h : FailsOnly P
      ((Drive.lines host (p.callables host globals) (some (w.generation + 1))
        p.steps).exec (.start input globals) w.begin).1)
    (hr : ((p.run host globals input).run w).1 = some r)
    (he : r.error = some e) : P e := by
  unfold Program.run at hr
  rw [run_runLines] at hr
  rcases hlines :
    (Drive.lines host (p.callables host globals)
      (some (w.generation + 1)) p.steps).exec (.start input globals)
      w.begin with ⟨e' | ending, q, w'⟩ <;>
    rw [hlines] at hr h
  · obtain rfl := Option.some.inj hr
    obtain rfl := Option.some.inj he
    exact h _ rfl
  · cases ending with
    | done =>
      obtain rfl := Option.some.inj hr
      cases he
    | superseded => cases hr

end Fails

end StreamScript
