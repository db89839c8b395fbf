import StreamScript.Expr.Basic
import StreamScript.Value.Operator
import StreamScript.Host

/-!
# The value of an expression

An expression is evaluated in a scope: the stream, the position among the
elements of the enclosing block, and the variables in sight. What a call does is
not the business of expressions; it is given by `Callables`, so that the
recursion here is on the expression alone.

Operands are evaluated from left to right, and the first error is the error of
the whole. `&` and `|` look at their right operand only if the left one leaves
the answer open. The method call evaluates its right operand with the value of
its left one as the stream, and the member operator takes a bare name on its
right as the text of a key.
-/

namespace StreamScript

/-- **What an expression can see.** -/
structure Scope where
  stream : Value
  index : Nat
  /-- The variables, the nearest first. -/
  vars : List (Bindings Value)

namespace Scope

/-- The nearest variable of a name. -/
def lookup (s : Scope) (name : String) : Option Value :=
  s.vars.findSome? fun bindings => bindings.get? name

/-- The same scope around another stream. -/
def retarget (s : Scope) (stream : Value) : Scope :=
  { s with stream }

end Scope

/-- **What can be called.** -/
structure Callables (σ : Type) where
  /-- Whether a bare name calls the function of that name. -/
  isNullary : String → Bool
  /-- Calls a function on a target. -/
  call : String → Value → List Value → Act σ Value

namespace Expr

/-- The operators that need both operands and nothing else. -/
def applyBinary (op : BinaryOp) (l r : Value) : Except RunError Value :=
  match op with
  | .add => l.add r
  | .eq => (l.equals r).map .truth
  | .ne => (l.equals r).map fun same => .truth !same
  | .lt | .gt | .le | .ge => (l.relate op.symbol r).map .truth
  | .member => l.member r
  | _ => l.arith op.symbol r

/-- The signs before an operand. -/
def applyUnary : UnaryOp → Value → Except RunError Value
  | .negate, v => v.negate
  | .not, v => v.not

/-- A name alone: a variable, or else a call. -/
def resolve {σ : Type} (calls : Callables σ) (scope : Scope) (name : String) :
    Act σ Value :=
  match scope.lookup name with
  | some v => pure v
  | none =>
    if calls.isNullary name then calls.call name scope.stream []
    else throw (.unknownName name)

mutual

/-- **Evaluates an expression.** -/
def eval {σ : Type} (calls : Callables σ) (scope : Scope) : Expr → Act σ Value
  | .name n => resolve calls scope n
  | .number x => pure (.number x)
  | .text s => pure (.text s)
  | .truth b => pure (.truth b)
  | .stream => pure scope.stream
  | .index => pure (.number (Float.ofNat scope.index))
  | .group inner => inner.eval calls scope
  | .array items => do
    let values ← evalAll calls scope items
    return .array values
  | .unary op operand => do
    let v ← operand.eval calls scope
    applyUnary op v
  | .call f arguments => do
    let values ← evalAll calls scope arguments
    calls.call f scope.stream values
  | .binary left .method right => do
    let target ← left.eval calls scope
    right.eval calls (scope.retarget target)
  | .binary left .member (.name key) => do
    let container ← left.eval calls scope
    container.member (.text key)
  | .binary left .and right => do
    let v ← left.eval calls scope
    if ← v.asTruth then
      let w ← right.eval calls scope
      return .truth (← w.asTruth)
    else return .truth false
  | .binary left .or right => do
    let v ← left.eval calls scope
    if ← v.asTruth then return .truth true
    else
      let w ← right.eval calls scope
      return .truth (← w.asTruth)
  | .binary left op right => do
    let l ← left.eval calls scope
    let r ← right.eval calls scope
    applyBinary op l r

/-- Evaluates several expressions, from left to right. -/
def evalAll {σ : Type} (calls : Callables σ) (scope : Scope) : List Expr →
    Act σ (List Value)
  | [] => pure []
  | e :: es => do
    let v ← e.eval calls scope
    let vs ← evalAll calls scope es
    return v :: vs

end

end Expr

end StreamScript
