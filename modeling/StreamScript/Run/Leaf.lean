import StreamScript.Expr.Eval
import StreamScript.Statement.Basic

/-!
# One line on one branch

A line is executed on every branch that the open scopes have made, each for
itself. This module says what it does on one of them: which value it leaves,
which local it binds, into which elements it fans out, and whether it ends the
run. It reads the branch's scope and changes nothing but the world; what has
been found out here is put into place later, for all branches together.
-/

namespace StreamScript

/-- **What a line does on one branch.** -/
structure Outcome where
  stream : Value
  /-- The local that is bound. -/
  bind : Option (String × Value) := none
  /-- The elements of the scope that is opened. -/
  elements : Option (List Value) := none
  exits : Bool := false

/-- The pair of a key and a value, as an array. -/
def entryPair (entry : Key × Value) : Value :=
  .array [entry.1.toValue, entry.2]

/-- **The elements a scope goes through.** Only `map` goes through maps, and
`do` takes its value as a single element. -/
def ScopeKind.elements (kind : ScopeKind) (v : Value) :
    Except RunError (List Value) :=
  match kind, v with
  | .do, v => .ok [v]
  | _, .array items => .ok items
  | .map, .map entries => .ok (entries.map entryPair)
  | kind, v => .error (.notIterable kind v.kind)

/-- Opens a scope on a branch: the elements of its value. -/
def ScopeForm.elements {σ : Type} (calls : Callables σ) (s : ScopeForm)
    (scope : Scope) :
    Act σ (List Value) := do
  match s.pre with
  | some e =>
    let v ← e.eval calls scope
    s.kind.elements v
  | none => s.kind.elements scope.stream

/-- The stream behind a chain of expressions, each on what the one before it
leaves. -/
def evalChain {σ : Type} (calls : Callables σ) (scope : Scope) : List Expr →
    Act σ Value
  | [] => pure scope.stream
  | e :: es => do
    let v ← e.eval calls scope
    evalChain calls (scope.retarget v) es

/-- **Executes an action on a branch.** -/
def Action.execute {σ : Type} (calls : Callables σ) (scope : Scope) :
    Action → Act σ Outcome
  | .exit => pure { stream := scope.stream, exits := true }
  | .eval e => do
    let v ← e.eval calls scope
    return { stream := v }
  | .store name e => do
    let v ← e.eval calls scope
    return { stream := scope.stream, bind := some (name, v) }
  | .scope s | .storeScope _ s => do
    let elements ← s.elements calls scope
    return { stream := scope.stream, elements := some elements }
  | .chain head middle (.expr e) => do
    let v ← evalChain calls scope (head :: middle ++ [e])
    return { stream := v }
  | .chain head middle (.scope s) => do
    let v ← evalChain calls scope (head :: middle)
    let elements ← s.elements calls (scope.retarget v)
    return { stream := v, elements := some elements }

end StreamScript
