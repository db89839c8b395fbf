import StreamScript.Run.Leaf
import StreamScript.Run.Fold

/-!
# Branches

Execution keeps a tree of branches in an array. The root holds the input; a
scope makes a branch of every element of its value, below the branch that it was
opened on, and its block is executed on those. A branch is found by its position
in the array, and it is always behind its parent.

The branches that the next line is executed on are the `leaves`. A line reads
all of them before it changes any: every leaf has a task of its own, and when
all tasks are done `Arena.commit` puts what has come of them into place. If one
of them fails nothing is changed. In which order the tasks are done is left
open (`Tasks`); `Arena.outcomes` does them one after the other, from left to
right.

On the way back the children of a branch are taken out of it (`Arena.drain`),
folded into one value (`Arena.folded`), and their parent receives it. When all
parents of a scope have been seen to, the children are dropped from the end of
the array (`Arena.ascend`).

A reference to a branch that is not there would be an error of its own. None
ever occurs.
-/

namespace StreamScript

/-- **A branch of a run.** -/
structure Branch where
  stream : Value
  locals : Bindings Value := []
  /-- The position among the elements of the scope. -/
  index : Nat := 0
  parent : Option Nat := none
  /-- The element that the branch began with. -/
  origin : Value
  children : List Nat := []
deriving Inhabited

namespace Branch

/-- What has become of the element that a branch was made for. -/
def yield (b : Branch) : Yield :=
  { result := b.stream, origin := b.origin }

/-- A branch with nothing left in it. -/
def emptied (b : Branch) : Branch :=
  { b with stream := .empty, origin := .empty }

end Branch

/-- **The branches of a run** and the leaves among them. -/
structure Arena where
  branches : Array Branch
  leaves : List Nat

/-- **A scope whose block is being executed.** -/
structure OpenScope where
  /-- The line that opened it. -/
  line : Nat
  form : ScopeForm
  /-- The local that receives its value. -/
  target : Option String
  /-- The branches it was opened on. -/
  parents : List Nat
  /-- How many branches there were before it was opened. -/
  mark : Nat

namespace Arena

/-- The branches at the beginning of a run: the root alone. -/
def root (input : Value) (locals : Bindings Value) : Arena :=
  { branches := #[{ stream := input, locals, origin := input }], leaves := [0] }

/-- **The value of the root**, which is what a run leaves behind. -/
def output (a : Arena) : Value :=
  (a.branches[0]?.map Branch.stream).getD .empty

/-- A branch that has to be there. -/
def branch (a : Arena) (id : Nat) : Except RunError Branch :=
  match a.branches[id]? with
  | some b => .ok b
  | none => .error (.task ("no branch " ++ toString id))

/-- Changes a branch. -/
def modify (a : Arena) (id : Nat) (f : Branch → Branch) : Arena :=
  { a with branches := a.branches.modify id f }

/-! ## What a branch sees -/

/-- The locals of a branch and of the branches above it, the nearest first. -/
def localsAbove (a : Arena) (id : Nat) : List (Bindings Value) :=
  match a.branches[id]? with
  | none => []
  | some b =>
    match b.parent with
    | none => [b.locals]
    | some up => if up < id then b.locals :: a.localsAbove up else [b.locals]
termination_by id

/-- The scope of a branch. -/
def scopeOf (a : Arena) (id : Nat) : Except RunError Scope :=
  (a.branch id).map fun b =>
    { stream := b.stream, index := b.index, vars := a.localsAbove id }

/-! ## Executing a line -/

/-- What a line does on one leaf. -/
def outcome {σ : Type} (a : Arena) (calls : Callables σ) (action : Action)
    (leaf : Nat) :
    Act σ Outcome := do
  let scope ← a.scopeOf leaf
  action.execute calls scope

/-- **What a line does on the leaves**, from left to right. The first task that
fails ends it, and those behind it are not begun. -/
def outcomes {σ : Type} (a : Arena) (calls : Callables σ) (action : Action) :
    Act σ (List Outcome) :=
  a.leaves.mapM (a.outcome calls action)

/-- The branches of the elements that a scope goes through on a branch. -/
def branchesOf (parent : Nat) (elements : List Value) : List Branch :=
  elements.zipIdx.map fun (v, index) =>
    { stream := v, index, parent := some parent, origin := v }

/-- Puts into place what a line has done on one leaf: the new stream, the
local, and the branches of the elements. -/
def settle (a : Arena) (leaf : Nat) (outcome : Outcome) : Arena :=
  let elements := outcome.elements.getD []
  let children := List.range' a.branches.size elements.length
  let grown : Arena :=
    { a with branches := a.branches ++ branchesOf leaf elements }
  grown.modify leaf fun b =>
    { b with
      stream := outcome.stream
      locals := Bindings.setAll b.locals outcome.bind.toList
      children := b.children ++ children }

/-- **Puts into place** what a line has done on the leaves. -/
def commit (a : Arena) : List (Nat × Outcome) → Arena
  | [] => a
  | (leaf, outcome) :: rest => (a.settle leaf outcome).commit rest

/-- The branches of a scope, made since there were `mark` branches, become the
leaves. -/
def descend (a : Arena) (mark : Nat) : Arena :=
  { a with leaves := List.range' mark (a.branches.size - mark) }

/-! ## Closing a scope -/

/-- What has become of the children of a branch. -/
def yieldsOf (a : Arena) (id : Nat) : Except RunError (List Yield) := do
  let b ← a.branch id
  b.children.mapM fun child => (a.branch child).map Branch.yield

/-- Takes the children out of a branch: it has none any more, and nothing is
left in them. -/
def drain (a : Arena) (id : Nat) : Arena :=
  let children := (a.branches[id]?.map Branch.children).getD []
  (children.foldl (fun a child => a.modify child Branch.emptied) a).modify id
    fun b =>
    { b with children := [] }

/-- The value of a scope on one of the branches it was opened on, from what has
become of its children. -/
def folded {σ : Type} (a : Arena) (calls : Callables σ) (form : ScopeForm)
    (parent : Nat) (yields : List Yield) : Act σ Value := do
  let v ← form.kind.fold yields
  match form.post with
  | none => return v
  | some post =>
    let scope ← a.scopeOf parent
    post.eval calls (scope.retarget v)

/-- Puts the value of a scope where it belongs: into the stream of the branch,
or into a local. -/
def receive (a : Arena) (target : Option String) (parent : Nat) (v : Value) :
    Arena :=
  a.modify parent fun b =>
    match target with
    | none => { b with stream := v }
    | some name => { b with locals := b.locals.set name v }

/-- **The way back**: the branches made for a scope are dropped, and those it
was opened on are the leaves again. -/
def ascend (a : Arena) (s : OpenScope) : Arena :=
  { branches := a.branches.take s.mark, leaves := s.parents }

end Arena

/-- **A way to do the tasks of a line**: what comes of the line on the leaves,
in the order in which the leaves stand. `Arena.outcomes` is one way, and a
`Schedule` is another. -/
abbrev Tasks (σ : Type) : Type :=
  Arena → Callables σ → Action → Act σ (List Outcome)

end StreamScript
