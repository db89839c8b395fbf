import StreamScript.Proofs.Notes

/-!
# Runs that take notes

A run does the same whether it takes notes or not. What its notes say is found
out here, once for all that one may want to know about them. Notes are an
account of what is done within some tasks if doing nothing accounts for
nothing, one account behind another is one, and an account of what is done
within a task, put between the notes of its beginning and its end, is an
account of that task (`Account`). Given that, and a property that all values
keep (`Keeps`), one step takes notes that are an account if what it leaves to
others does (`Program.advance_follows`), and so by induction on the rank the
notes of every task are one (`Program.noting_follows`).

None of this speaks of a particular account. How deep calls nest is read off
from one kind of notes, and that all values are well formed from another; both
are instances of `Account`.
-/

namespace StreamScript

variable {σ : Type}

/-! ## One step with notes

A task does some work itself and leaves the rest to others, which are given to
it as parameters. What the two kinds of runs have in common is stated with
these parameters: if the others follow, with notes that are an account, so does
the task. There is a lemma for each kind of task, following the cases of what
the task does. The hypotheses on values say that what goes into a task is good,
and the conclusions that what comes out of it is. -/

section Steps

variable {Good : Value → Prop} {L : List Note → Prop}
  {eval : Expr → Scope → Drive σ Value}
  {eval' : Expr → Scope → Drive (σ × List Note) Value}

open Drive Drive.Follows

/-- A built-in function takes note of what it puts aside. -/
theorem Builtin.call_follows (hG : Keeps Good) (hL : Joins L)
    (haside : ∀ {label v}, Good v → L [.aside label v]) (host : Host σ)
    (b : Builtin) {target : Value} {arguments : List Value}
    (htarget : Good target) (harguments : ∀ a ∈ arguments, Good a) :
    Follows Good L Good (perform (b.call host target arguments))
      (perform (b.call host.noting target arguments)) := by
  have text : ∀ i, Follows Good L (fun _ => True)
      (perform (liftM (textArgument arguments i)))
      (perform (liftM (textArgument arguments i)) : Drive (σ × List Note)
        String) :=
    fun i => lift hL fun _ _ => trivial
  unfold Builtin.call
  rw [perform_bind, perform_bind]
  refine bind hL (lift hL fun _ _ => trivial) fun _ _ => ?_
  cases b
  case sideOutput =>
    simp only [perform_bind, perform_pure]
    exact bind hL (text 0) fun label _ =>
      bind hL (request (host.sideOutput label target) (haside htarget))
        fun _ _ =>
        Follows.pure hL htarget
  case getFiles =>
    simp only [perform_bind, perform_pure]
    exact bind hL (request host.listFiles hL.nil) fun names _ =>
      Follows.pure hL
        (hG.array (List.forall_mem_map.2 fun name _ => hG.text name))
  case loadFile =>
    simp only [perform_bind, perform_pure]
    exact bind hL (text 0) fun name _ =>
      bind hL (request (host.loadFile name) hL.nil) fun contents _ =>
        Follows.pure hL (hG.text contents)
  all_goals exact lift hL (hG.apply htarget harguments)

/-- What a variable holds. -/
theorem Scope.lookup_good {scope : Scope} (h : ∀ v ∈ scope.values, Good v)
    {name : String} {v : Value} (hv : scope.lookup name = some v) : Good v := by
  obtain ⟨bindings, hmem, hget⟩ := List.exists_of_findSome?_eq_some hv
  obtain ⟨_, _, rfl, _⟩ := List.lookup_eq_some_iff.1 hget
  refine h v (List.mem_cons_of_mem _ (List.mem_flatMap.2 ⟨_, hmem, ?_⟩))
  exact List.mem_map.2 ⟨(name, v), by simp, rfl⟩

/-- The values that an expression sees, with another stream. -/
theorem Scope.retarget_good {scope : Scope} (h : ∀ v ∈ scope.values, Good v)
    {v : Value} (hv : Good v) : ∀ x ∈ (scope.retarget v).values, Good x :=
  List.forall_mem_cons.2 ⟨hv, (List.forall_mem_cons.1 h).2⟩

/-- **An expression**, if its parts and the calls in it take their notes. Each
form of an expression is a sequence of evaluations and an operation on their
values, and the operation keeps values good. -/
theorem Expr.advance_follows (hG : Keeps Good) (hL : Joins L)
    {isNullary : String → Bool}
    {call : String → Value → List Value → Drive σ Value}
    {call' : String → Value → List Value → Drive (σ × List Note) Value}
    (hcall : ∀ name target arguments, Good target →
        (∀ a ∈ arguments, Good a) →
      Follows Good L Good (call name target arguments)
      (call' name target arguments))
    {scope : Scope} (hscope : ∀ v ∈ scope.values, Good v) (e : Expr)
    {eval : ∀ e' : Expr, sizeOf e' < sizeOf e → Scope → Drive σ Value}
    {eval' : ∀ e' : Expr, sizeOf e' < sizeOf e → Scope →
      Drive (σ × List Note) Value}
    (heval : ∀ e' h scope', (∀ v ∈ scope'.values, Good v) →
      Follows Good L Good (eval e' h scope') (eval' e' h scope'))
    {evalAll : ∀ es : List Expr, sizeOf es < sizeOf e → Drive σ (List Value)}
    {evalAll' : ∀ es : List Expr, sizeOf es < sizeOf e →
      Drive (σ × List Note) (List Value)}
    (hevalAll : ∀ es h, Follows Good L (fun vs => ∀ v ∈ vs, Good v)
      (evalAll es h)
      (evalAll' es h)) :
    Follows Good L Good (e.advance isNullary call scope eval evalAll)
      (e.advance isNullary call' scope eval' evalAll') := by
  have hstream : Good scope.stream := (List.forall_mem_cons.1 hscope).1
  have truth : ∀ v : Value,
      Follows Good L (fun _ => True) (perform (liftM v.asTruth))
      (perform (liftM v.asTruth) : Drive (σ × List Note) Bool) :=
    fun v => lift hL fun _ _ => trivial
  cases e with
  | name n =>
    simp only [advance]
    cases hlookup : scope.lookup n with
    | some v => exact Follows.pure hL (Scope.lookup_good hscope hlookup)
    | none =>
      dsimp only
      split_ifs
      · exact hcall n scope.stream [] hstream (List.forall_mem_nil _)
      · exact Follows.throw hL _
  | number x => exact Follows.pure hL (hG.number x)
  | text s => exact Follows.pure hL (hG.text s)
  | truth b => exact Follows.pure hL (hG.truth b)
  | stream => exact Follows.pure hL hstream
  | index => exact Follows.pure hL (hG.number _)
  | group inner => exact heval inner _ scope hscope
  | array items =>
    exact bind hL (hevalAll items _) fun values hvalues =>
      Follows.pure hL (hG.array hvalues)
  | unary op operand =>
    exact bind hL (heval operand _ scope hscope) fun v hv =>
      lift hL (hG.unary hv)
  | call f arguments =>
    exact bind hL (hevalAll arguments _) fun values hvalues =>
      hcall f _ values hstream hvalues
  | binary left op right =>
    -- Only four operators do not evaluate both of their operands in the scope
    -- that is given.
    have both : ∀ (op' : BinaryOp) hl hr, Follows Good L Good
        (eval left hl scope >>= fun l => eval right hr scope >>= fun r =>
          perform (liftM (applyBinary op' l r)))
        (eval' left hl scope >>= fun l => eval' right hr scope >>= fun r =>
          perform (liftM (applyBinary op' l r))) :=
      fun op' hl hr => bind hL (heval left hl scope hscope) fun l hl =>
        bind hL (heval right hr scope hscope) fun r hr =>
          lift hL (hG.binary hl hr)
    cases op
    case method =>
      exact bind hL (heval left _ scope hscope) fun target htarget =>
        heval right _ _ (Scope.retarget_good hscope htarget)
    case member =>
      cases right
      case name key =>
        refine bind hL (heval left _ scope hscope) fun container hcontainer =>
          lift hL ?_
        have hmember : Gives Good (applyBinary .member container (.text key)) :=
          hG.binary hcontainer (hG.text key)
        exact hmember
      all_goals exact both .member _ _
    case and =>
      refine bind hL (heval left _ scope hscope) fun v _ =>
        bind hL (truth v) fun b _ => ?_
      split
      · exact bind hL (heval right _ scope hscope) fun w _ =>
          bind hL (truth w) fun b _ =>
          Follows.pure hL (hG.truth b)
      · exact Follows.pure hL (hG.truth false)
    case or =>
      refine bind hL (heval left _ scope hscope) fun v _ =>
        bind hL (truth v) fun b _ => ?_
      split
      · exact Follows.pure hL (hG.truth true)
      · exact bind hL (heval right _ scope hscope) fun w _ =>
          bind hL (truth w) fun b _ =>
          Follows.pure hL (hG.truth b)
    all_goals exact both _ _ _

/-- The elements of a scope's value. -/
theorem ScopeForm.advance_follows (hG : Keeps Good) (hL : Joins L)
    (heval : ∀ e scope, (∀ v ∈ scope.values, Good v) →
      Follows Good L Good (eval e scope) (eval' e scope))
    (s : ScopeForm) {scope : Scope} (hscope : ∀ v ∈ scope.values, Good v) :
    Follows Good L (fun vs => ∀ v ∈ vs, Good v) (s.advance eval scope)
      (s.advance eval' scope) := by
  unfold ScopeForm.advance
  cases s.pre with
  | none => exact lift hL (hG.elements (List.forall_mem_cons.1 hscope).1)
  | some e =>
    exact bind hL (heval e scope hscope) fun v hv => lift hL (hG.elements hv)

/-- **A line on one branch**, if the expressions in it take their notes. An
action hands expressions and chains of them on, and puts together what they
come to; whether it takes notes is up to these. -/
theorem Action.advance_follows (hG : Keeps Good) (hL : Joins L)
    (heval : ∀ e scope, (∀ v ∈ scope.values, Good v) →
      Follows Good L Good (eval e scope) (eval' e scope))
    {chain : List Expr → Scope → Drive σ Value}
    {chain' : List Expr → Scope → Drive (σ × List Note) Value}
    (hchain : ∀ es scope, (∀ v ∈ scope.values, Good v) →
      Follows Good L Good (chain es scope) (chain' es scope))
    (action : Action) {scope : Scope} (hscope : ∀ v ∈ scope.values, Good v) :
    Follows Good L (fun o => ∀ v ∈ o.values, Good v)
      (action.advance eval chain scope)
      (action.advance eval' chain' scope) := by
  have hstream : Good scope.stream := (List.forall_mem_cons.1 hscope).1
  have elements : ∀ {v : Value} {vs : List Value}, Good v → (∀ x ∈ vs, Good x) →
      ∀ x ∈ ({ stream := v, elements := some vs } : Outcome).values, Good x :=
    fun hv hvs => List.forall_mem_cons.2 ⟨hv, hvs⟩
  match action with
  | .exit => exact Follows.pure hL (List.forall_mem_singleton.2 hstream)
  | .eval e =>
    exact bind hL (heval e scope hscope) fun v hv =>
      Follows.pure hL (List.forall_mem_singleton.2 hv)
  | .store name e =>
    exact bind hL (heval e scope hscope) fun v hv =>
      Follows.pure hL
        (List.forall_mem_cons.2 ⟨hstream, List.forall_mem_singleton.2 hv⟩)
  | .scope s | .storeScope _ s =>
    exact bind hL (s.advance_follows hG hL heval hscope) fun vs hvs =>
      Follows.pure hL (elements hstream hvs)
  | .chain head middle (.expr e) =>
    exact bind hL (hchain _ scope hscope) fun v hv =>
      Follows.pure hL (List.forall_mem_singleton.2 hv)
  | .chain head middle (.scope s) =>
    exact bind hL (hchain _ scope hscope) fun v hv =>
      bind hL (s.advance_follows hG hL heval (Scope.retarget_good hscope hv))
        fun vs hvs =>
        Follows.pure hL (elements hv hvs)

namespace Drive

/-- The value of a scope on one branch. -/
theorem foldOnto_follows (hG : Keeps Good) (hL : Joins L)
    (heval : ∀ e scope, (∀ v ∈ scope.values, Good v) →
      Follows Good L Good (eval e scope) (eval' e scope))
    {a : Arena} (ha : a.Holds Good) (form : ScopeForm) (parent : Nat)
    {yields : List Yield}
    (hyields : ∀ y ∈ yields, Good y.result ∧ Good y.origin) :
    Follows Good L Good (foldOnto eval a form parent yields)
      (foldOnto eval' a form parent yields) := by
  refine bind hL (lift hL (hG.fold hyields)) fun v hv => ?_
  cases form.post with
  | none => exact Follows.pure hL hv
  | some post =>
    exact bind hL (lift hL (ha.scopeOf parent)) fun scope hscope =>
      heval post _ (Scope.retarget_good hscope hv)

/-- The innermost scope, if the folding takes its notes. -/
theorem closeOne_follows (hL : Joins L) (host : Host σ)
    {fold : OpenScope → Drive σ Unit}
    {fold' : OpenScope → Drive (σ × List Note) Unit}
    (hfold : ∀ s, Follows Good L (fun _ => True) (fold s) (fold' s)) :
    Follows Good L (fun _ => True) (closeOne host fold)
    (closeOne host.noting fold') := by
  refine bind hL (Follows.machine hL) fun m hm => ?_
  cases m.scopes with
  | nil => exact Follows.pure hL trivial
  | cons s outer =>
    refine bind hL (Follows.pause hL host) fun _ _ =>
      bind hL (Follows.become hL hm) fun _ _ => ?_
    exact (bind hL (hfold s) fun _ _ => bind hL (Follows.machine hL) fun m hm =>
      Follows.become hL (hm.ascend s)).blame s.line

/-- Scopes are closed one after the other, as many as are open too deep. -/
theorem closeDownTo_follows (hL : Joins L) {close : Nat → Drive σ Unit}
    {close' : Nat → Drive (σ × List Note) Unit}
    (hclose : ∀ n, Follows Good L (fun _ => True) (close n) (close' n))
    (depth : Nat) :
    Follows Good L (fun _ => True) (closeDownTo close depth)
    (closeDownTo close' depth) :=
  bind hL (Follows.machine hL) fun _ _ => hclose _

/-- **A line**, if what is done on the branches takes its notes. The line
itself makes no note. It reads the values of the branches and writes back what
has become of them. -/
theorem stepBy_follows (hL : Joins L) (host : Host σ)
    {execute : Action → Scope → Drive σ Outcome}
    {execute' : Action → Scope → Drive (σ × List Note) Outcome}
    (hexecute : ∀ action scope, (∀ v ∈ scope.values, Good v) →
      Follows Good L (fun o => ∀ v ∈ o.values, Good v) (execute action scope)
        (execute' action scope)) (s : Placed Step) :
    Follows Good L (fun _ => True) (stepBy host execute s)
    (stepBy host.noting execute' s) := by
  unfold stepBy
  cases s.content with
  | blank => exact Follows.pure hL trivial
  | invalid e => exact Follows.throw hL _
  | act action =>
    refine bind hL (Follows.pause hL host) fun _ _ =>
      bind hL (Follows.machine hL) fun m hm => ?_
    refine bind hL (mapM hL fun leaf _ => bind hL (lift hL (hm.scopeOf leaf))
      fun scope hscope =>
      hexecute action scope hscope) fun outcomes houtcomes => ?_
    exact bind hL (Follows.become hL (hm.after s.line action houtcomes))
      fun _ _ =>
      Follows.pure hL trivial

/-- A line is taken by closing the scopes it does not stand in, and executing
it. -/
theorem takeBy_follows (hL : Joins L) (host : Host σ)
    {close : Nat → Drive σ Unit} {close' : Nat → Drive (σ × List Note) Unit}
    (hclose : ∀ n, Follows Good L (fun _ => True) (close n) (close' n))
    {execute : Action → Scope → Drive σ Outcome}
    {execute' : Action → Scope → Drive (σ × List Note) Outcome}
    (hexecute : ∀ action scope, (∀ v ∈ scope.values, Good v) →
      Follows Good L (fun o => ∀ v ∈ o.values, Good v) (execute action scope)
        (execute' action scope)) (s : Placed Step) :
    Follows Good L (fun _ => True) (takeBy host close execute s)
      (takeBy host.noting close' execute' s) :=
  bind hL (closeDownTo_follows hL hclose s.depth) fun _ _ =>
    bind hL (Follows.arrive hL s.line) fun _ _ =>
      stepBy_follows hL host hexecute s

end Drive

end Steps

/-! ## Whole runs with notes

Tasks lie within one another like brackets: a call holds the body it enters,
and the body holds its lines. What is noted within a task stands between the
notes of its beginning and of its end, and it is an account if what is within
is one. The tasks around are known to an account, because what may be noted
within a task can depend on where the task stands; the number of bodies around
it, for one.

One step follows by the lemmas above. Everything it leaves to others ranks
lower, so the induction on the rank gives whole runs. -/

/-- **A task amid some number of running bodies.** A body does not count for
itself, but it does for what is done within. So bodies that run within one
another are counted by how many tasks of this kind are around, and the count is
the depth that the calls know. -/
inductive Work.Amid : Work → Nat → Prop
  | plain {depth : Nat} {t : Task} : t.isBody = false →
      Work.Amid ⟨depth, t⟩ depth
  | body {depth : Nat} {d : FunctionDef} {target : Value}
    {arguments : List Value} :
    depth < callLimit → Work.Amid ⟨depth + 1, .body d target arguments⟩ depth

/-- The bodies among some tasks. -/
def Work.bodies (stack : List Work) : Nat :=
  stack.countP fun t => t.task.isBody

/-- **Tasks within one another**, the innermost first: each ranks below the one
around it, and stands amid the bodies around it. It is what a run has under way
at some moment. By the ranks it can only be so long, and by the depths only so
many bodies are in it. -/
inductive Nesting : List Work → Prop
  | nil : Nesting []
  | cons {t : Work} {around : List Work} : Nesting around →
    t.Amid (Work.bodies around) →
    (∀ u ∈ around.head?, t.rank < u.rank) → Nesting (t :: around)

/-- **Notes that are an account** of what is done within some tasks. Notes are
about what is done within some tasks, and the list of these is the first
argument. The fields say which notes belong to what is done, and that notes of
things done one after the other are joined. -/
structure Account (Good : Value → Prop) (L : List Work → List Note → Prop) :
    Prop where
  joins : ∀ around, Joins (L around)
  aside : ∀ {around label v}, Good v → L around [.aside label v]
  within : ∀ {t around more before after}, Nesting (t :: around) →
    L (t :: around) more →
    (∀ v ∈ before, Good v) → (∀ v ∈ after, Good v) →
      L around (.begun t before :: more ++ [.ended t after])

theorem Work.Amid.depth_eq {t : Work} {n : Nat} (h : t.Amid n) :
    t.depth = n + if t.task.isBody then 1 else 0 := by
  cases h with
  | plain h => exact (if_neg (Bool.eq_false_iff.1 h)).symm ▸ rfl
  | body h => rfl

/-- A task has the bodies around what is done within it for its depth. So the
depth that a run carries along is not a matter of trust. -/
theorem Nesting.depth_eq {t : Work} {around : List Work}
    (h : Nesting (t :: around)) :
    t.depth = Work.bodies (t :: around) := by
  cases h with
  | cons _ hamid _ =>
    rw [hamid.depth_eq, Work.bodies, Work.bodies, List.countP_cons]

section Runs

variable {Good : Value → Prop} {globals : Bindings Value}

open Drive Drive.Follows

/-- The parameters of a function, with what they are bound to. -/
theorem FunctionDef.locals_good (hG : Keeps Good)
    (hglobals : ∀ g ∈ globals, Good g.2) (d : FunctionDef)
    {arguments : List Value} (h : ∀ a ∈ arguments, Good a) :
    ∀ l ∈ d.locals globals arguments, Good l.2 := by
  refine Bindings.forall_mem_setAll
    (List.forall_mem_map.2 fun (param, i) _ => ?_) hglobals
  dsimp only
  cases ha : arguments[i]? with
  | none => exact hG.text ""
  | some v => exact h v (List.mem_of_getElem? ha)

namespace Program

variable (p : Program) (host : Host σ) {L : List Note → Prop} {depth : Nat}

/-- **A call**, if the body that it may enter takes its notes. There are three
ends: the name is that of a built-in function, the call is refused, or the body
is entered, and then it is one level deeper. -/
theorem advance_call_follows (hG : Keeps Good) (hJ : Joins L)
    (haside : ∀ {label v}, Good v → L [.aside label v]) {name : String}
    {target : Value} {arguments : List Value} (htarget : Good target)
    (harguments : ∀ a ∈ arguments, Good a)
    {go : ∀ u : Work,
        u.rank < Work.rank ⟨depth, .call name target arguments⟩ →
      Drive σ u.task.Answer}
    {go' : ∀ u : Work, u.rank < Work.rank ⟨depth, .call name target arguments⟩ →
      Drive (σ × List Note) u.task.Answer}
    (hbody : ∀ d hu, depth < callLimit → Follows Good L Good
      (go ⟨depth + 1, .body d target arguments⟩ hu)
      (go' ⟨depth + 1, .body d target arguments⟩ hu)) :
    Follows Good L Good
      (p.advance host globals ⟨depth, .call name target arguments⟩ go)
      (p.advance host.noting globals ⟨depth, .call name target arguments⟩
        go') := by
  simp only [advance]
  cases p.function? name with
  | none =>
    cases Builtin.named? name with
    | none => exact Follows.throw hJ _
    | some b => exact b.call_follows hG hJ haside host htarget harguments
  | some d =>
    refine bind hJ (lift hJ fun _ _ => trivial) fun _ _ => ?_
    split_ifs with h
    · exact hbody d _ h
    · exact Follows.throw hJ _

/-- **The folding of a scope**, if the expression behind it and the folding of
the branches that are left take their notes. The elements are read off the
arena and what they fold into is put back; in between there may be an
expression behind the scope. -/
theorem advance_fold_follows (hG : Keeps Good) (hJ : Joins L) {s : OpenScope}
    {parents : List Nat}
    {go : ∀ u : Work, u.rank < Work.rank ⟨depth, .fold s parents⟩ →
      Drive σ u.task.Answer}
    {go' : ∀ u : Work, u.rank < Work.rank ⟨depth, .fold s parents⟩ →
      Drive (σ × List Note) u.task.Answer}
    (heval : ∀ e scope hu, (∀ v ∈ scope.values, Good v) → Follows Good L Good
      (go ⟨depth, .eval e scope⟩ hu) (go' ⟨depth, .eval e scope⟩ hu))
    (hfold : ∀ parents hu, Follows Good L (fun _ => True)
      (go ⟨depth, .fold s parents⟩ hu) (go' ⟨depth, .fold s parents⟩ hu)) :
    Follows Good L (fun _ => True)
      (p.advance host globals ⟨depth, .fold s parents⟩ go)
      (p.advance host.noting globals ⟨depth, .fold s parents⟩ go') := by
  cases parents with
  | nil => exact Follows.pure hJ trivial
  | cons parent parents =>
    refine bind hJ (Follows.machine hJ) fun m hm =>
      bind hJ (lift hJ (hm.yieldsOf parent)) fun yields hyields => ?_
    have hdrain := hm.drain hG parent
    refine bind hJ (Follows.become hJ hdrain) fun _ _ => ?_
    refine bind hJ (foldOnto_follows hG hJ (fun e scope => heval e scope _)
      hdrain s.form parent hyields) fun v hv => ?_
    refine bind hJ (Follows.become hJ ?_) fun _ _ => hfold parents _
    exact hdrain.receive s.target parent hv

/-- **Some lines**, if the closing of scopes, the line on the branches and the
lines that are left take their notes. A line that has been executed leaves a
world in which the token is looked at, and this is no task and makes no note.
-/
theorem advance_lines_follows (hJ : Joins L) {token : Option Nat}
    {l : List (Placed Step)}
    {go : ∀ u : Work, u.rank < Work.rank ⟨depth, .lines token l⟩ →
      Drive σ u.task.Answer} {go' : ∀ u : Work,
      u.rank < Work.rank ⟨depth, .lines token l⟩ →
      Drive (σ × List Note) u.task.Answer}
    (hclose : ∀ n hu, Follows Good L (fun _ => True)
      (go ⟨depth, .close n⟩ hu) (go' ⟨depth, .close n⟩ hu))
    (hexecute : ∀ action scope hu, (∀ v ∈ scope.values, Good v) →
      Follows Good L (fun o => ∀ v ∈ o.values, Good v)
        (go ⟨depth, .execute action scope⟩ hu)
        (go' ⟨depth, .execute action scope⟩ hu))
    (hlines : ∀ l hu, Follows Good L (fun _ => True)
      (go ⟨depth, .lines token l⟩ hu) (go' ⟨depth, .lines token l⟩ hu)) :
    Follows Good L (fun _ => True)
      (p.advance host globals ⟨depth, .lines token l⟩ go)
      (p.advance host.noting globals ⟨depth, .lines token l⟩ go') := by
  cases l with
  | nil =>
    exact bind hJ (closeDownTo_follows hJ (fun n => hclose n _) 0) fun _ _ =>
      Follows.pure hJ trivial
  | cons s rest =>
    simp only [advance]
    split_ifs with hblank
    · exact hlines rest _
    · refine bind hJ (takeBy_follows hJ host (fun n => hclose n _)
        (fun action scope => hexecute action scope _) s) fun exits _ => ?_
      split_ifs with hexits
      · exact bind hJ (closeDownTo_follows hJ (fun n => hclose n _) 0)
          fun _ _ =>
          Follows.pure hJ trivial
      · refine bind hJ (Follows.isSuperseded hJ host token) fun superseded _ =>
          ?_
        split_ifs with hsuperseded
        · exact Follows.pure hJ trivial
        · exact hlines rest _

/-- **One step takes its notes**, if what it leaves to others takes them. There
is a case for each kind of task. What it leaves to others ranks lower and
stands amid the same bodies, which is what the hypothesis on them may ask for.
-/
theorem advance_follows (hG : Keeps Good) (hJ : Joins L)
    (haside : ∀ {label v}, Good v → L [.aside label v])
    (hglobals : ∀ g ∈ globals, Good g.2) {task : Task}
    {go : ∀ u : Work, u.rank < Work.rank ⟨depth, task⟩ → Drive σ u.task.Answer}
    {go' : ∀ u : Work, u.rank < Work.rank ⟨depth, task⟩ →
      Drive (σ × List Note) u.task.Answer}
    (hgo : ∀ (u : Work) (hu : u.rank < Work.rank ⟨depth, task⟩), u.Amid depth →
      (∀ v ∈ u.task.given, Good v) →
        Follows Good L (fun answer => ∀ v ∈ u.task.made answer, Good v)
          (go u hu) (go' u hu))
    (hgiven : ∀ v ∈ task.given, Good v) :
    Follows Good L (fun answer => ∀ v ∈ task.made answer, Good v)
      (p.advance host globals ⟨depth, task⟩ go)
      (p.advance host.noting globals ⟨depth, task⟩ go') := by
  have heval : ∀ e scope hu, (∀ v ∈ scope.values, Good v) → Follows Good L Good
      (go ⟨depth, .eval e scope⟩ hu) (go' ⟨depth, .eval e scope⟩ hu) :=
    fun e scope hu h => (hgo _ hu (.plain rfl) h).mono fun _ =>
      List.forall_mem_singleton.1
  have hevalAll : ∀ es scope hu, (∀ v ∈ scope.values, Good v) →
      Follows Good L (fun vs => ∀ v ∈ vs, Good v)
        (go ⟨depth, .evalAll es scope⟩ hu)
        (go' ⟨depth, .evalAll es scope⟩ hu) :=
    fun es scope hu h => hgo _ hu (.plain rfl) h
  have hchain : ∀ es scope hu, (∀ v ∈ scope.values, Good v) →
      Follows Good L Good (go ⟨depth, .chain es scope⟩ hu)
      (go' ⟨depth, .chain es scope⟩ hu) :=
    fun es scope hu h => (hgo _ hu (.plain rfl) h).mono fun _ =>
      List.forall_mem_singleton.1
  have hclose : ∀ n hu, Follows Good L (fun _ => True)
      (go ⟨depth, .close n⟩ hu) (go' ⟨depth, .close n⟩ hu) :=
    fun n hu => (hgo _ hu (.plain rfl) nofun).mono fun _ _ => trivial
  have hfold : ∀ s parents hu, Follows Good L (fun _ => True)
      (go ⟨depth, .fold s parents⟩ hu) (go' ⟨depth, .fold s parents⟩ hu) :=
    fun s parents hu => (hgo _ hu (.plain rfl) nofun).mono fun _ _ => trivial
  have hlines : ∀ token l hu, Follows Good L (fun _ => True)
      (go ⟨depth, .lines token l⟩ hu) (go' ⟨depth, .lines token l⟩ hu) :=
    fun token l hu => (hgo _ hu (.plain rfl) nofun).mono fun _ _ => trivial
  cases task with
  | eval e scope =>
    have hcall : ∀ name target arguments hu, Good target →
        (∀ a ∈ arguments, Good a) →
        Follows Good L Good (go ⟨depth, .call name target arguments⟩ hu)
          (go' ⟨depth, .call name target arguments⟩ hu) :=
      fun name target arguments hu htarget harguments =>
        (hgo _ hu (.plain rfl)
          (List.forall_mem_cons.2 ⟨htarget, harguments⟩)).mono fun _ =>
          List.forall_mem_singleton.1
    exact (Expr.advance_follows hG hJ
      (fun name target arguments => hcall name target arguments _)
      hgiven e (fun e' _ scope' => heval e' scope' _) fun es _ =>
        hevalAll es scope _ hgiven).mono fun _ => List.forall_mem_singleton.2
  | evalAll es scope =>
    cases es with
    | nil => exact Follows.pure hJ nofun
    | cons e es =>
      exact bind hJ (heval e scope _ hgiven) fun v hv =>
        bind hJ (hevalAll es scope _ hgiven) fun vs hvs =>
          Follows.pure hJ (List.forall_mem_cons.2 ⟨hv, hvs⟩)
  | chain es scope =>
    cases es with
    | nil =>
      exact Follows.pure hJ
        (List.forall_mem_singleton.2 (List.forall_mem_cons.1 hgiven).1)
    | cons e es =>
      exact bind hJ (heval e scope _ hgiven) fun v hv =>
        (hchain es _ _ (Scope.retarget_good hgiven hv)).mono fun _ =>
          List.forall_mem_singleton.2
  | call name target arguments =>
    obtain ⟨htarget, harguments⟩ := List.forall_mem_cons.1 hgiven
    exact (p.advance_call_follows host hG hJ haside htarget harguments
      fun d hu h =>
      (hgo _ hu (.body h) hgiven).mono fun _ =>
        List.forall_mem_singleton.1).mono fun _ => List.forall_mem_singleton.2
  | body d target arguments =>
    obtain ⟨htarget, harguments⟩ := List.forall_mem_cons.1 hgiven
    have hstart : (Arena.root target (d.locals globals arguments)).Holds Good :=
      Arena.holds_root htarget (d.locals_good hG hglobals harguments)
    exact (Follows.within hG hstart (hlines none d.body _)).mono
      fun _ => List.forall_mem_singleton.2
  | execute action scope =>
    exact Action.advance_follows hG hJ (fun e scope => heval e scope _)
      (fun es scope => hchain es scope _) action hgiven
  | fold s parents =>
    exact (p.advance_fold_follows host hG hJ heval (hfold s)).mono
      fun _ _ => nofun
  | close n =>
    cases n with
    | zero => exact Follows.pure hJ nofun
    | succ n =>
      exact bind hJ (closeOne_follows hJ host fun s => hfold s _ _) fun _ _ =>
        (hclose n _).mono fun _ _ => nofun
  | lines token l =>
    exact (p.advance_lines_follows host hJ hclose
      (fun action scope hu h => hgo _ hu (.plain rfl) h) (hlines token)).mono
      fun _ _ => nofun

/-- **Every task is done alike with notes**, and the notes are an account of
it. The induction is on the rank of the task. The notes say when a task begins
and when it ends, so they are well nested by construction; that they are an
account is what each task adds to those within it. -/
theorem noting_follows {L : List Work → List Note → Prop} (hG : Keeps Good)
    (hL : Account Good L) (hglobals : ∀ g ∈ globals, Good g.2) (t : Work)
    {around : List Work} (ht : Nesting (t :: around))
    (hgiven : ∀ v ∈ t.task.given, Good v) :
    Follows Good (L around) (fun answer => ∀ v ∈ t.task.made answer, Good v)
      (p.carryOut host globals t) (p.noting host globals t) := by
  induction t
    using (InvImage.wf Work.rank wellFounded_lt).induction generalizing
    around with
  | _ t ih =>
    rw [carryOut_eq_advance, noting_eq]
    refine (p.advance_follows host hG (hL.joins (t :: around)) hL.aside hglobals
      (fun u hu hamid hgiven => ih u hu (.cons ht ?_ ?_) hgiven) hgiven).noted
        hgiven (fun _ h => h) (hL.within ht)
    · exact ht.depth_eq ▸ hamid
    · rintro _ ⟨⟩
      exact hu

end Program

/-- The output of a run is what its root holds in the end. -/
theorem RunResult.output_eq_of_of? {ending : Except RunError Ending}
    {final : Progress} {r : RunResult}
    (h : RunResult.of? ending final = some r) :
    r.output = final.machine.arena.output := by
  rcases ending with e | _ | _
  · obtain rfl := Option.some.inj h
    rfl
  · obtain rfl := Option.some.inj h
    rfl
  · cases h

/-- What a run with notes leaves behind. -/
structure NotedRun (σ : Type) where
  result : Option RunResult
  world : World σ
  notes : List Note

/-- **A run that takes notes.** It runs the lines of the program as a task, and
what was noted is handed back beside the result and the world. It is not
computable only because the recursion is on the rank of a task; the run it
follows is the one that is executed. -/
noncomputable def Program.notedRun (p : Program) (host : Host σ)
    (globals : Bindings Value) (input : Value) (w : World σ) : NotedRun σ :=
  let (r, q, w') :=
    (p.noting host globals ⟨0, .lines (some (w.generation + 1)) p.steps⟩).exec
    (.start input globals) w.begin.unnoted
  { result := RunResult.of? r q, world := w'.plain, notes := w'.notes }

/-- What can be said of a run that takes notes. -/
structure NotedRun.Accounts (Good : Value → Prop) (L : List Note → Prop)
    (n : NotedRun σ) (plain : Option RunResult × World σ) : Prop where
  /-- The notes make no difference. -/
  same : (n.result, n.world) = plain
  notes : L n.notes
  output : ∀ r, n.result = some r → Good r.output

/-- **A run that takes notes is the run**, and the notes are an account of it.
So whatever follows from notes holds of the run itself, though the run takes
none. -/
theorem Program.notedRun_accounts (p : Program) (host : Host σ)
    {L : List Work → List Note → Prop} (hG : Keeps Good)
    (hL : Account Good L) (hglobals : ∀ g ∈ globals, Good g.2) {input : Value}
    (hinput : Good input) (w : World σ) :
    (p.notedRun host globals input w).Accounts Good (L [])
      ((p.run host globals input).run w) := by
  obtain ⟨hresult, hprogress, hworld, ⟨more, hmore, hl⟩, hholds, -⟩ :=
    p.noting_follows host hG hL hglobals
      ⟨0, .lines (some (w.generation + 1)) p.steps⟩
      (.cons .nil (.plain rfl) nofun) nofun (.start input globals)
      w.begin.unnoted (Arena.holds_root hinput hglobals)
  refine ⟨?_, ?_, fun r hr => ?_⟩
  · rw [run_eq_carryOut]
    exact Prod.ext (congrArg₂ RunResult.of? hresult hprogress) hworld
  · show L [] (((p.noting host globals _).exec _ _).2.2.notes)
    rw [hmore]
    exact hl
  · rw [← hprogress] at hholds
    rw [RunResult.output_eq_of_of? hr]
    exact hholds.output hG

end Runs

end StreamScript
