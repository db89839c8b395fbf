import Mathlib.Data.Prod.Lex
import StreamScript.Proofs.Effects

/-!
# What is left to do

The functions that a run is made of call one another in a circle: an expression
calls a function, the body of the function is a run of lines, a line is
executed on branches, and there an expression is evaluated again. Nothing but
the depth of nested calls keeps the circle from going on for ever.

Here the circle is cut open. What a run can be asked to do is a task, and
`Program.advance` does one step of it, with all that has to be done besides
left to somebody else. Who is asked is asked for less: the rank of a task
(`Work.rank`) counts the calls that may still be nested, then the statements,
then the scopes and then the size of the expression, and `advance` cannot be
written down without a proof that the rank goes down. The functions of a run
are what this makes of itself (`Program.carryOut_eq_advance`), and nothing else
is (`Program.eq_carryOut`).
-/

namespace StreamScript

variable {σ : Type}

/-! ## Tasks

A task is a call of one of the functions that a run is made of, with its
arguments. The functions that go through a list of lines, scopes or branches
are tasks as well, and so are those for the parts of an expression. That is
enough to follow a run from its first line down to the smallest operand. -/

/-- **What a run is asked to do.** -/
inductive Task where
  /-- To evaluate an expression. -/
  | eval (e : Expr) (scope : Scope)
  /-- To evaluate several expressions in one scope. -/
  | evalAll (es : List Expr) (scope : Scope)
  /-- To evaluate several expressions, each on what the one before it leaves. -/
  | chain (es : List Expr) (scope : Scope)
  /-- To call what goes by a name. -/
  | call (name : String) (target : Value) (arguments : List Value)
  /-- To run the body of a function. -/
  | body (d : FunctionDef) (target : Value) (arguments : List Value)
  /-- To execute a line on one branch. -/
  | execute (action : Action) (scope : Scope)
  /-- To fold the children of some branches into them. -/
  | fold (s : OpenScope) (parents : List Nat)
  /-- To close some scopes. -/
  | close (n : Nat)
  /-- To go through some lines. -/
  | lines (token : Option Nat) (l : List (Placed Step))

namespace Task

/-- What comes of a task. -/
abbrev Answer : Task → Type
  | .eval _ _ | .chain _ _ | .call _ _ _ | .body _ _ _ => Value
  | .evalAll _ _ => List Value
  | .execute _ _ => Outcome
  | .fold _ _ | .close _ => Unit
  | .lines _ _ => Ending

/-- The statements that are left, and the steps from a call to them. -/
def statements : Task → Nat
  | .lines _ l => l.length + 1
  | .body d _ _ => d.body.length + 2
  | _ => 0

/-- The scopes that are left. A line on one branch, and the folding of a scope,
are within one. -/
def scopes : Task → Nat
  | .close n => n + 1
  | .execute _ _ | .fold _ _ => 1
  | _ => 0

/-- The size of what is left of an expression, or the branches left to fold. -/
noncomputable def size : Task → Nat
  | .eval e _ => sizeOf e
  | .evalAll es _ | .chain es _ => sizeOf es
  | .fold _ parents => parents.length
  | _ => 0

end Task

/-- **A task at a depth of nested calls.** -/
structure Work where
  /-- How many functions are being run around the task. -/
  depth : Nat
  task : Task

namespace Work

/-- **What is left to do**: calls that may still nest, statements, scopes, and
the expression at hand, the former before the latter. -/
noncomputable def rank (t : Work) : ℕ ×ₗ ℕ ×ₗ ℕ ×ₗ ℕ :=
  toLex (callLimit - t.depth,
    toLex (t.task.statements, toLex (t.task.scopes, t.task.size)))

variable {depth : Nat} {a b : Task}

/-- Less of an expression is left, or fewer branches to fold. It is the last
component that goes down: statements, scopes and the depth are as before. -/
theorem rank_lt_of_size (hl : a.statements = b.statements)
    (hs : a.scopes = b.scopes) (h : a.size < b.size) :
    rank ⟨depth, a⟩ < rank ⟨depth, b⟩ := by
  simp only [rank, Prod.Lex.toLex_lt_toLex, hl, hs, lt_self_iff_false, true_and,
    false_or]
  exact h

/-- Fewer scopes are left. How large the expressions are that are asked for is
of no matter then. -/
theorem rank_lt_of_scopes (hl : a.statements = b.statements)
    (h : a.scopes < b.scopes) :
    rank ⟨depth, a⟩ < rank ⟨depth, b⟩ := by
  simp only [rank, Prod.Lex.toLex_lt_toLex, hl, lt_self_iff_false, true_and,
    false_or]
  exact .inl h

/-- Fewer statements are left. So the scopes that have to be closed before a
line may be as many as there are. -/
theorem rank_lt_of_statements (h : a.statements < b.statements) :
    rank ⟨depth, a⟩ < rank ⟨depth, b⟩ := by
  simp only [rank, Prod.Lex.toLex_lt_toLex, lt_self_iff_false, true_and,
    false_or]
  exact .inl h

/-- Fewer calls may be nested. This is the only step of a run that makes
everything else larger: the body of a function has as many lines as it likes.
-/
theorem rank_lt_of_depth (h : depth < callLimit) :
    rank ⟨depth + 1, a⟩ < rank ⟨depth, b⟩ := by
  simp only [rank, Prod.Lex.toLex_lt_toLex]
  exact .inl (by omega)

end Work

/-! ## One step -/

/-! ## Less of an expression

The size of an expression is the one that the system generates, so a part is
smaller than what it is part of, and the lemmas say so for each kind of part.
They are written out because `Expr.advance` takes them as proofs: it may ask
for the value of a part only with the lemma in its hand. -/

theorem Expr.sizeOf_pos (e : Expr) : 0 < sizeOf e := by
  refine Nat.pos_of_ne_zero ?_
  cases e <;> simp

theorem sizeOf_head_lt (e : Expr) (es : List Expr) :
    sizeOf e < sizeOf (e :: es) := by
  rw [List.cons.sizeOf_spec]
  omega

theorem sizeOf_tail_lt (e : Expr) (es : List Expr) :
    sizeOf es < sizeOf (e :: es) := by
  rw [List.cons.sizeOf_spec]
  omega

theorem Expr.sizeOf_inner_lt (inner : Expr) :
    sizeOf inner < sizeOf (group inner) := by
  rw [group.sizeOf_spec]
  omega

theorem Expr.sizeOf_items_lt (items : List Expr) :
    sizeOf items < sizeOf (array items) := by
  rw [array.sizeOf_spec]
  omega

theorem Expr.sizeOf_operand_lt (op : UnaryOp) (operand : Expr) :
    sizeOf operand < sizeOf (unary op operand) := by
  rw [unary.sizeOf_spec]
  omega

theorem Expr.sizeOf_arguments_lt (f : String) (arguments : List Expr) :
    sizeOf arguments < sizeOf (call f arguments) := by
  rw [call.sizeOf_spec]
  omega

theorem Expr.sizeOf_left_lt (left : Expr) (op : BinaryOp) (right : Expr) :
    sizeOf left < sizeOf (binary left op right) := by
  rw [binary.sizeOf_spec]
  omega

theorem Expr.sizeOf_right_lt (left : Expr) (op : BinaryOp) (right : Expr) :
    sizeOf right < sizeOf (binary left op right) := by
  rw [binary.sizeOf_spec]
  omega

/-- **One step of evaluating an expression.** Its parts are left to `eval` and
`evalAll`, and its calls to `call`. -/
def Expr.advance (isNullary : String → Bool)
    (call : String → Value → List Value → Drive σ Value) (scope : Scope) :
      (e : Expr) →
      (∀ e' : Expr, sizeOf e' < sizeOf e → Scope → Drive σ Value) →
      (∀ es : List Expr, sizeOf es < sizeOf e → Drive σ (List Value)) →
      Drive σ Value
  | .name n, _, _ =>
    match scope.lookup n with
    | some v => pure v
    | none =>
      if isNullary n then call n scope.stream [] else throw (.unknownName n)
  | .number x, _, _ => pure (.number x)
  | .text s, _, _ => pure (.text s)
  | .truth b, _, _ => pure (.truth b)
  | .stream, _, _ => pure scope.stream
  | .index, _, _ => pure (.number (Float.ofNat scope.index))
  | .group inner, eval, _ => eval inner (sizeOf_inner_lt inner) scope
  | .array items, _, evalAll => do
    let values ← evalAll items (sizeOf_items_lt items)
    return .array values
  | .unary op operand, eval, _ => do
    let v ← eval operand (sizeOf_operand_lt op operand) scope
    Drive.perform (liftM (applyUnary op v))
  | .call f arguments, _, evalAll => do
    let values ← evalAll arguments (sizeOf_arguments_lt f arguments)
    call f scope.stream values
  | .binary left .method right, eval, _ => do
    let target ← eval left (sizeOf_left_lt left .method right) scope
    eval right (sizeOf_right_lt left .method right) (scope.retarget target)
  | .binary left .member (.name key), eval, _ => do
    let container ← eval left (sizeOf_left_lt left .member (.name key)) scope
    Drive.perform (liftM (container.member (.text key)))
  | .binary left .and right, eval, _ => do
    let v ← eval left (sizeOf_left_lt left .and right) scope
    if ← Drive.perform (liftM v.asTruth) then
      let w ← eval right (sizeOf_right_lt left .and right) scope
      return .truth (← Drive.perform (liftM w.asTruth))
    else return .truth false
  | .binary left .or right, eval, _ => do
    let v ← eval left (sizeOf_left_lt left .or right) scope
    if ← Drive.perform (liftM v.asTruth) then return .truth true
    else
      let w ← eval right (sizeOf_right_lt left .or right) scope
      return .truth (← Drive.perform (liftM w.asTruth))
  | .binary left op right, eval, _ => do
    let l ← eval left (sizeOf_left_lt left op right) scope
    let r ← eval right (sizeOf_right_lt left op right) scope
    Drive.perform (liftM (applyBinary op l r))

/-- The elements of a scope's value, the expression in front of the scope left
to `eval`. -/
def ScopeForm.advance (eval : Expr → Scope → Drive σ Value) (s : ScopeForm)
    (scope : Scope) :
    Drive σ (List Value) := do
  match s.pre with
  | some e =>
    let v ← eval e scope
    Drive.perform (liftM (s.kind.elements v))
  | none => Drive.perform (liftM (s.kind.elements scope.stream))

/-- One step of executing a line on one branch. -/
def Action.advance (eval : Expr → Scope → Drive σ Value)
    (chain : List Expr → Scope → Drive σ Value) (scope : Scope) : Action →
    Drive σ Outcome
  | .exit => pure { stream := scope.stream, exits := true }
  | .eval e => do
    let v ← eval e scope
    return { stream := v }
  | .store name e => do
    let v ← eval e scope
    return { stream := scope.stream, bind := some (name, v) }
  | .scope s | .storeScope _ s => do
    let elements ← s.advance eval scope
    return { stream := scope.stream, elements := some elements }
  | .chain head middle (.expr e) => do
    let v ← chain (head :: middle ++ [e]) scope
    return { stream := v }
  | .chain head middle (.scope s) => do
    let v ← chain (head :: middle) scope
    let elements ← s.advance eval (scope.retarget v)
    return { stream := v, elements := some elements }

namespace Drive

/-- The value of a scope on one branch, the expression behind the scope left to
`eval`. -/
def foldOnto (eval : Expr → Scope → Drive σ Value) (a : Arena)
    (form : ScopeForm) (parent : Nat) (yields : List Yield) :
    Drive σ Value := do
  let v ← perform (liftM (form.kind.fold yields))
  match form.post with
  | none => return v
  | some post =>
    let scope ← perform (liftM (a.scopeOf parent))
    eval post (scope.retarget v)

/-- Closes the innermost scope, the folding left to `fold`. -/
def closeOne (host : Host σ) (fold : OpenScope → Drive σ Unit) :
    Drive σ Unit := do
  let m ← machine
  match m.scopes with
  | [] => return ()
  | s :: outer =>
    pause host
    become { m with scopes := outer }
    blame s.line do
      fold s
      let m ← machine
      become { m with arena := m.arena.ascend s }

/-- Closes the scopes deeper than a line, one by one left to `close`. -/
def closeDownTo (close : Nat → Drive σ Unit) (depth : Nat) : Drive σ Unit := do
  let m ← machine
  close (m.scopes.length - depth)

/-- Executes a line, on the branches left to `execute`. -/
def stepBy (host : Host σ) (execute : Action → Scope → Drive σ Outcome)
    (s : Placed Step) :
    Drive σ Bool := do
  match s.content with
  | .blank => return false
  | .invalid e => throw (.invalid e)
  | .act action =>
    pause host
    let m ← machine
    let outcomes ← m.arena.leaves.mapM fun leaf => do
      let scope ← perform (liftM (m.arena.scopeOf leaf))
      execute action scope
    become (m.after s.line action outcomes)
    return outcomes.any Outcome.exits

/-- Takes a line. -/
def takeBy (host : Host σ) (close : Nat → Drive σ Unit)
    (execute : Action → Scope → Drive σ Outcome) (s : Placed Step) :
    Drive σ Bool := do
  closeDownTo close s.depth
  arrive s.line
  stepBy host execute s

/-- Runs lines from a beginning of their own, of which only the value of the
root and the error remain. -/
def within (start : Progress) (d : Drive σ Ending) : Act σ Value := do
  let (ending, final) ← (d.run.run start : StateM (World σ) _)
  let _ ← (ending : Except RunError Ending)
  return final.machine.arena.output

/-- What lines leave that are run from a beginning of their own. -/
theorem exec_within (start : Progress) (d : Drive σ Ending) (w : World σ) :
    (within start d).exec w =
      match d.exec start w with
      | (.ok _, q, w') => (.ok q.machine.arena.output, w')
      | (.error e, _, w') => (.error e, w') := by
  simp only [exec]
  rcases h : d start w with ⟨⟨_ | _, q⟩, w'⟩ <;>
    simp only [within, Act.exec, ExceptT.run, StateT.run, h, bind, ExceptT.bind,
      ExceptT.mk, StateT.bind, ExceptT.bindCont, liftM, monadLift,
      MonadLift.monadLift, ExceptT.lift,
      Functor.map, StateT.map] <;> rfl

end Drive

open Drive Work in
/-- **One step of a run.** What else there is to do has less left to do. Every
request names a task of lower rank, and the proof of that stands in its
arguments; so there is no way to write down a step that would go on for ever. A
call is the only place that reads the depth: at the limit it fails, and below
it asks for the body of the function one level deeper. -/
def Program.advance (p : Program) (host : Host σ) (globals : Bindings Value) :
    (t : Work) →
    (∀ u : Work, u.rank < t.rank → Drive σ u.task.Answer) →
    Drive σ t.task.Answer
  | ⟨depth, .eval e scope⟩, go =>
    e.advance p.isNullary
      (fun name target arguments =>
        go ⟨depth, .call name target arguments⟩
          (rank_lt_of_size rfl rfl e.sizeOf_pos)) scope
      (fun e' h scope' => go ⟨depth, .eval e' scope'⟩ (rank_lt_of_size rfl rfl h))
      (fun es h => go ⟨depth, .evalAll es scope⟩ (rank_lt_of_size rfl rfl h))
  | ⟨_, .evalAll [] _⟩, _ => pure []
  | ⟨depth, .evalAll (e :: es) scope⟩, go => do
    let v ← go ⟨depth, .eval e scope⟩
        (rank_lt_of_size rfl rfl (sizeOf_head_lt e es))
    let vs ← go ⟨depth, .evalAll es scope⟩
        (rank_lt_of_size rfl rfl (sizeOf_tail_lt e es))
    return v :: vs
  | ⟨_, .chain [] scope⟩, _ => pure scope.stream
  | ⟨depth, .chain (e :: es) scope⟩, go => do
    let v ← go ⟨depth, .eval e scope⟩
        (rank_lt_of_size rfl rfl (sizeOf_head_lt e es))
    go ⟨depth, .chain es (scope.retarget v)⟩
      (rank_lt_of_size rfl rfl (sizeOf_tail_lt e es))
  | ⟨depth, .call name target arguments⟩, go =>
    match p.function? name with
    | none =>
      match Builtin.named? name with
      | some b => perform (b.call host target arguments)
      | none => throw (.unknownFunction name)
    | some d => do
      perform (liftM (checkArity name 0 d.params.length arguments.length))
      if h : depth < callLimit then
        go ⟨depth + 1, .body d target arguments⟩ (rank_lt_of_depth h)
      else throw (.recursion d.name callLimit)
  | ⟨depth, .body d target arguments⟩, go =>
    perform (within (.start target (d.locals globals arguments))
      (go ⟨depth, .lines none d.body⟩
        (rank_lt_of_statements (Nat.lt_succ_self _))))
  | ⟨depth, .execute action scope⟩, go =>
    action.advance
      (fun e scope =>
        go ⟨depth, .eval e scope⟩ (rank_lt_of_scopes rfl Nat.one_pos))
      (fun es scope => go ⟨depth, .chain es scope⟩
        (rank_lt_of_scopes rfl Nat.one_pos)) scope
  | ⟨_, .fold _ []⟩, _ => pure ()
  | ⟨depth, .fold s (parent :: parents)⟩, go => do
    let m ← machine
    let yields ← perform (liftM (m.arena.yieldsOf parent))
    let arena := m.arena.drain parent
    become { m with arena }
    let v ← foldOnto
      (fun e scope => go ⟨depth, .eval e scope⟩
        (rank_lt_of_scopes rfl Nat.one_pos)) arena s.form parent yields
    become { m with arena := arena.receive s.target parent v }
    go ⟨depth, .fold s parents⟩ (rank_lt_of_size rfl rfl (Nat.lt_succ_self _))
  | ⟨_, .close 0⟩, _ => pure ()
  | ⟨depth, .close (n + 1)⟩, go => do
    closeOne host fun s =>
      go ⟨depth, .fold s s.parents⟩
        (rank_lt_of_scopes rfl (Nat.succ_lt_succ n.succ_pos))
    go ⟨depth, .close n⟩ (rank_lt_of_scopes rfl (Nat.lt_succ_self _))
  | ⟨depth, .lines _ []⟩, go => do
    closeDownTo
      (fun n => go ⟨depth, .close n⟩ (rank_lt_of_statements (Nat.succ_pos _))) 0
    return .done
  | ⟨depth, .lines token (s :: rest)⟩, go =>
    have hlines : rank ⟨depth, .lines token rest⟩
        < rank ⟨depth, .lines token (s :: rest)⟩ :=
      rank_lt_of_statements (Nat.lt_succ_self _)
    let close : Nat → Drive σ Unit := fun n =>
      go ⟨depth, .close n⟩ (rank_lt_of_statements (Nat.succ_pos _))
    let execute : Action → Scope → Drive σ Outcome := fun action scope =>
      go ⟨depth, .execute action scope⟩ (rank_lt_of_statements (Nat.succ_pos _))
    if s.content.isBlank then go ⟨depth, .lines token rest⟩ hlines
    else do
      if ← takeBy host close execute s then
        closeDownTo close 0
        return .done
      else if ← isSuperseded host token then return .superseded
      else go ⟨depth, .lines token rest⟩ hlines

/-! ## Whole tasks

What a run does about a task is not defined anew. It is the function itself,
with as many calls left to nest as the depth leaves room for. -/

/-- What the lines at a depth of nested calls can call. -/
def Program.callablesAt (p : Program) (host : Host σ) (globals : Bindings Value)
    (depth : Nat) :
    Callables σ :=
  ⟨p.isNullary, p.call host globals (callLimit - depth)⟩

/-- **What a run does about a task**: the functions that the run is made of.
The depth is turned around: what a call is given is how many more may be
nested, which is the limit less the depth. -/
def Program.carryOut (p : Program) (host : Host σ) (globals : Bindings Value) :
    (t : Work) → Drive σ t.task.Answer
  | ⟨depth, .eval e scope⟩ =>
    Drive.perform (e.eval (p.callablesAt host globals depth) scope)
  | ⟨depth, .evalAll es scope⟩ =>
    Drive.perform (Expr.evalAll (p.callablesAt host globals depth) scope es)
  | ⟨depth, .chain es scope⟩ =>
    Drive.perform (evalChain (p.callablesAt host globals depth) scope es)
  | ⟨depth, .call name target arguments⟩ =>
    Drive.perform
      (p.call host globals (callLimit - depth) name target arguments)
  | ⟨depth, .body d target arguments⟩ =>
    Drive.perform
      (d.run host (p.callablesAt host globals depth) globals target arguments)
  | ⟨depth, .execute action scope⟩ =>
    Drive.perform (action.execute (p.callablesAt host globals depth) scope)
  | ⟨depth, .fold s parents⟩ =>
    Drive.foldParents (p.callablesAt host globals depth) s parents
  | ⟨depth, .close n⟩ =>
    Drive.closeScopes host (p.callablesAt host globals depth) n
  | ⟨depth, .lines token l⟩ =>
    Drive.lines host (p.callablesAt host globals depth) token l

/-! ## The tasks are done step by step

Each of the functions is now compared with its step. Most of this is the
definition read once, with acts that are performed in a drive instead of being
sequenced by themselves; calls are the exception, since there the allowance for
nested calls meets the depth. -/

namespace Drive

variable {α β : Type}

/-- Drives that do the same from every state are the same. -/
theorem ext {x y : Drive σ α} (h : ∀ q w, x.exec q w = y.exec q w) : x = y := by
  funext q w
  have := h q w
  simp only [exec] at this
  refine Prod.ext (Prod.ext ?_ ?_) ?_
  · exact congrArg (fun r => r.1) this
  · exact congrArg (fun r => r.2.1) this
  · exact congrArg (fun r => r.2.2) this

theorem perform_pure (a : α) : (perform (pure a) : Drive σ α) = pure a := rfl

theorem perform_throw (e : RunError) :
    (perform (throw e) : Drive σ α) = throw e := rfl

/-- An act that is performed changes the world and not the machine, so
performing a sequence is performing the acts of it in turn. -/
theorem perform_bind (x : Act σ α) (f : α → Act σ β) :
    perform (x >>= f) = perform x >>= fun a => perform (f a) := by
  refine ext fun q w => ?_
  rw [exec_perform, exec_bind, exec_perform, Act.exec_bind]
  obtain ⟨_ | a, w'⟩ := x.exec w <;> rfl

theorem perform_mapM (f : α → Act σ β) (l : List α) :
    perform (l.mapM f) = l.mapM fun a => perform (f a) := by
  induction l with
  | nil => rfl
  | cons a l ih =>
    simp only [List.mapM_cons, perform_bind, ih, perform_pure]

end Drive

namespace Expr

variable {calls : Callables σ}

/-- Expressions are evaluated step by step. -/
theorem perform_eval (e : Expr) (scope : Scope) :
    Drive.perform (e.eval calls scope) =
      e.advance calls.isNullary
        (fun name target arguments =>
          Drive.perform (calls.call name target arguments)) scope
        (fun e' _ scope' => Drive.perform (e'.eval calls scope'))
        (fun es _ => Drive.perform (evalAll calls scope es)) := by
  cases e with
  | name n =>
    simp only [eval, resolve, advance]
    cases scope.lookup n with
    | some v => rfl
    | none => simp only [apply_ite Drive.perform, Drive.perform_throw]
  | binary l op r =>
    cases op
    case member => cases r <;> simp only [eval, advance, Drive.perform_bind]
    all_goals
      simp only [eval, advance, Drive.perform_bind, Drive.perform_pure,
        apply_ite Drive.perform]
  | array items =>
    simp only [eval, advance, Drive.perform_bind, Drive.perform_pure]
  | unary op operand => simp only [eval, advance, Drive.perform_bind]
  | call f arguments => simp only [eval, advance, Drive.perform_bind]
  | _ => rfl

end Expr

/-- So are the elements of a scope: the expression in front of it is asked for,
and the kind of the scope does the rest. -/
theorem ScopeForm.perform_elements (calls : Callables σ) (s : ScopeForm)
    (scope : Scope) :
    Drive.perform (s.elements calls scope) =
      s.advance (fun e scope => Drive.perform (e.eval calls scope)) scope := by
  unfold ScopeForm.elements ScopeForm.advance
  cases s.pre with
  | none => rfl
  | some e => exact Drive.perform_bind _ _

/-- And so is a line on one branch, whose expression or chain of expressions is
asked for whole. -/
theorem Action.perform_execute (calls : Callables σ) (action : Action)
    (scope : Scope) :
    Drive.perform (action.execute calls scope) =
      action.advance (fun e scope => Drive.perform (e.eval calls scope))
        (fun es scope => Drive.perform (evalChain calls scope es)) scope := by
  match action with
  | .exit => rfl
  | .eval e | .store _ e =>
    simp only [execute, advance, Drive.perform_bind, Drive.perform_pure]
  | .scope s | .storeScope _ s | .chain _ _ (.scope s) =>
    simp only [execute, advance, Drive.perform_bind, Drive.perform_pure,
      ScopeForm.perform_elements]
  | .chain _ _ (.expr e) =>
    simp only [execute, advance, Drive.perform_bind, Drive.perform_pure]

/-- The value of a scope on a branch asks for one expression at most, that
behind the scope. -/
theorem Arena.perform_folded (calls : Callables σ) (a : Arena)
    (form : ScopeForm) (parent : Nat) (yields : List Yield) :
    Drive.perform (a.folded calls form parent yields) =
      Drive.foldOnto (fun e scope => Drive.perform (e.eval calls scope)) a form
      parent yields := by
  unfold Arena.folded Drive.foldOnto
  rw [Drive.perform_bind]
  congr 1
  funext v
  cases form.post with
  | none => rfl
  | some post => exact Drive.perform_bind _ _

/-- A line asks for itself on each of the leaves. The order is that of the
leaves, as it is in the run. -/
theorem Drive.step_eq_stepBy (host : Host σ) (calls : Callables σ)
    (s : Placed Step) :
    Drive.step host calls s =
      Drive.stepBy host (fun action scope =>
        Drive.perform (action.execute calls scope)) s := by
  unfold Drive.step Drive.stepWith Drive.stepBy
  cases s.content with
  | blank => rfl
  | invalid e => rfl
  | act action =>
    simp only [Arena.outcomes, Drive.perform_mapM, Arena.outcome,
      Drive.perform_bind]

namespace Program

variable (p : Program) (host : Host σ) (globals : Bindings Value)

/-- **The functions of a run go step by step**: each is one step, with itself
for the rest. -/
theorem carryOut_eq_advance (t : Work) :
    p.carryOut host globals t = p.advance host globals t fun u _ =>
      p.carryOut host globals u := by
  obtain ⟨depth, task⟩ := t
  cases task with
  | eval e scope => exact e.perform_eval scope
  | evalAll es scope =>
    cases es with
    | nil => rfl
    | cons e es =>
      simp only [carryOut, advance, Expr.evalAll, Drive.perform_bind,
        Drive.perform_pure]
  | chain es scope =>
    cases es with
    | nil => rfl
    | cons e es => simp only [carryOut, advance, evalChain, Drive.perform_bind]
  | call name target arguments =>
    simp only [carryOut, advance]
    -- The allowance of the calls is what the depth has left of the limit.
    generalize hleft : callLimit - depth = left
    unfold Program.call Program.callWith
    cases p.function? name with
    | none => cases Builtin.named? name <;> rfl
    | some d =>
      rw [Drive.perform_bind]
      congr 1
      funext _
      cases left with
      | zero => rw [dif_neg (by omega)]; rfl
      | succ left =>
        rw [dif_pos (by omega), callablesAt,
          show callLimit - (depth + 1) = left by omega]
        rfl
  | body d target arguments => rfl
  | execute action scope => exact action.perform_execute _ scope
  | fold s parents =>
    cases parents with
    | nil => rfl
    | cons parent parents =>
      simp only [carryOut, advance, Drive.foldParents, Drive.foldParent,
        Arena.perform_folded, bind_assoc]
  | close n =>
    cases n with
    | zero => rfl
    | succ n => rfl
  | lines token l =>
    cases l with
    | nil => rfl
    | cons s rest =>
      simp only [carryOut, advance, Drive.lines_cons, Drive.take_eq,
        Drive.step_eq_stepBy]
      rfl

/-- **Nothing else goes step by step**: what is made of itself like the
functions of a run is these functions. The induction is along the rank, which
`advance` lowers for everything that it asks for. -/
theorem eq_carryOut {other : (t : Work) → Drive σ t.task.Answer}
    (h : ∀ t, other t = p.advance host globals t fun u _ => other u) :
    other = p.carryOut host globals := by
  funext t
  induction t using (InvImage.wf Work.rank wellFounded_lt).induction with
  | _ t ih =>
    rw [h t, carryOut_eq_advance]
    congr 1
    funext u hu
    exact ih u hu

/-- A run is what is done about its lines at depth zero. -/
theorem run_eq_carryOut (input : Value) (w : World σ) :
    (p.run host globals input).run w =
      let (r, q, w') := (p.carryOut host globals
        ⟨0, .lines (some (w.generation + 1)) p.steps⟩).exec
        (.start input globals) w.begin
      (RunResult.of? r q, w') := rfl

end Program

end StreamScript
