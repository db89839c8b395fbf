import StreamScript.Proofs.LineForms
import StreamScript.Run.Leaf

/-!
# Chains and method calls

A chain hands a value on from part to part, and so does the method call, which
evaluates what stands behind the colon with the value before it as the stream.
Written with brackets around its parts, a row of method calls is a tree that
leans to the left, and the chain of the same parts is evaluated alike
(`Expr.eval_methods`).

A chain can also be taken apart: it is its first part, and behind that a chain
with one part less, or its last part alone, executed on the value of the first
(`Action.execute_chain`). The scope that a chain opens is the one that its last
part opens.
-/

namespace StreamScript

variable {σ : Type} (calls : Callables σ)

/-! ## Chains taken apart

A chain is an expression, others in the middle, and a last part that may be a
scope. Behind its first part there is again a chain, or if nothing is in the
middle the last part alone. The equation for what a chain does follows this,
and it holds whatever the functions do that are called. -/

/-- The last part of a chain on a line of its own. -/
def ChainEnd.action : ChainEnd → Action
  | .expr e => .eval e
  | .scope s => .scope s

namespace Action

/-- What a chain does behind its first part. -/
def behind (middle : List Expr) (last : ChainEnd) : Action :=
  match middle with
  | [] => last.action
  | e :: middle => .chain e middle last

/-- **What a chain does, part by part.** Any other line is its only part. -/
def parts : Action → List Action
  | .chain head middle last => (head :: middle).map .eval ++ [last.action]
  | action => [action]

theorem parts_chain (head : Expr) (middle : List Expr) (last : ChainEnd) :
    (chain head middle last).parts
      = .eval head :: (behind middle last).parts := by
  cases middle with
  | nil => cases last <;> rfl
  | cons e middle => rfl

/-- **A chain is its first part, and what is behind it.** The value of the
first part is the stream of the rest; index and variables are as before. -/
theorem execute_chain (head : Expr) (middle : List Expr) (last : ChainEnd)
    (scope : Scope) :
    (chain head middle last).execute calls scope = (do
      let v ← head.eval calls scope
      (behind middle last).execute calls (scope.retarget v)) := by
  cases middle <;> cases last <;>
    simp only [execute, behind, ChainEnd.action, List.cons_append,
      List.nil_append, evalChain, bind_assoc, pure_bind] <;> rfl

theorem opened?_chain (head : Expr) (middle : List Expr) (last : ChainEnd) :
    (chain head middle last).opened? = (behind middle last).opened? := by
  cases middle <;> cases last <;> rfl

end Action

/-! ## Method calls

A method call evaluates its right side on the value of its left side. Several
of them in a row are a tree that leans to the left, and evaluating it from the
root reaches the leftmost expression first. That is the order of a chain. -/

/-- **Expressions joined by method calls**, each in brackets. -/
def Expr.methods (head : Expr) (rest : List Expr) : Expr :=
  rest.foldl (fun left e => .binary left .method (.group e)) (.group head)

theorem Expr.eval_foldl_method (left : Expr) (rest : List Expr)
    (scope : Scope) :
    (rest.foldl (fun left e => Expr.binary left .method (.group e)) left).eval
    calls scope = (do
      let v ← left.eval calls scope
      evalChain calls (scope.retarget v) rest) := by
  induction rest generalizing left with
  | nil => exact (bind_pure _).symm
  | cons e rest ih =>
    rw [List.foldl_cons, ih]
    -- The method call evaluates both operands, and the chain goes on behind
    -- them.
    show ((left.eval calls scope >>= fun v => e.eval calls (scope.retarget v))
        >>= _) = _
    rw [bind_assoc]
    rfl

/-- **They are evaluated like a chain.** -/
theorem Expr.eval_methods (head : Expr) (rest : List Expr) (scope : Scope) :
    (head.methods rest).eval calls scope
      = evalChain calls scope (head :: rest) :=
  eval_foldl_method calls (.group head) rest scope

/-- Method calls are joined from the left. All of them bind alike, so that
folding takes them as they come. -/
theorem Alternation.reduce_methods (left : Expr) (rest : List Expr) :
    (Alternation.mk left (rest.map fun e => (.method, .group e))).reduce =
      rest.foldl (fun left e => .binary left .method (.group e)) left := by
  have hjoin :
      joinLevel 1 left (rest.map fun e => (BinaryOp.method, Expr.group e))
      = ⟨rest.foldl (fun left e => .binary left .method (.group e)) left,
        []⟩ := by
    induction rest generalizing left with
    | nil => rfl
    | cons e rest ih =>
      rw [List.map_cons, joinLevel,
        if_pos (show BinaryOp.method.level = 1 from rfl), ih, List.foldl_cons]
  unfold reduce levels
  simp only [List.foldl_cons, List.foldl_nil, hjoin, joinLevel]

/-! ## How they are written

In the text every part is put in brackets, since a colon binds more tightly
than other operators and a part may hold any of them. -/

/-- Parts in brackets, with the colon of a method call between them. -/
def joinMethods (parts : List (List Token)) : List Token :=
  List.intercalate [":"] (parts.map fun part => "(" :: (part ++ [")"]))

section Parse

variable {head last : List Token} {parts : List (List Token)} {e e' : Expr}
    {es : List Expr}

theorem joinMethods_singleton (part : List Token) :
    joinMethods [part] = "(" :: (part ++ [")"]) := by
  unfold joinMethods
  rw [List.map_singleton, List.intercalate_singleton]

theorem joinMethods_cons (part part' : List Token) (parts : List (List Token)) :
    joinMethods (part :: part' :: parts) =
      "(" :: (part ++ ")" :: ":" :: joinMethods (part' :: parts)) := by
  unfold joinMethods
  rw [List.map_cons, Pattern.intercalate_cons _ (by simp)]
  simp

theorem joinMethods_ne_nil (part : List Token) (parts : List (List Token)) :
    joinMethods (part :: parts) ≠ [] := by
  cases parts with
  | nil =>
    rw [joinMethods_singleton]
    exact List.cons_ne_nil _ _
  | cons part' parts =>
    rw [joinMethods_cons]
    exact List.cons_ne_nil _ _

theorem parseAlternation_joinMethods (hhead : parseExpr head = .ok e)
    (hparts : List.Forall₂ (fun part e => parseExpr part = .ok e) parts es) :
    parseAlternation (joinMethods (head :: parts)) =
      .ok ⟨.group e, es.map fun e => (.method, .group e)⟩ := by
  induction hparts generalizing head e with
  | nil =>
    refine parseAlternation_of_nil ?_
    rw [joinMethods_singleton]
    exact readOperand_group (balanced_of_parseExpr hhead)
      (ne_nil_of_parseExpr hhead) hhead
  | @cons part e' parts es hpart _ ih =>
    rw [joinMethods_cons]
    -- The colon behind the bracket is that of a method call.
    have hread :
        readOperand ("(" :: (head ++ ")" :: ":" :: joinMethods (part :: parts)))
        = .ok
        (.group e, BinaryOp.method.symbol :: joinMethods (part :: parts)) :=
      readOperand_group (balanced_of_parseExpr hhead)
        (ne_nil_of_parseExpr hhead) hhead
    exact parseAlternation_of_cons hread (joinMethods_ne_nil part parts)
      (ih hpart)

/-- **A row of method calls is read from the left.** -/
theorem parseExpr_joinMethods (hhead : parseExpr head = .ok e)
    (hparts : List.Forall₂ (fun part e => parseExpr part = .ok e) parts es) :
    parseExpr (joinMethods (head :: parts)) = .ok (e.methods es) :=
  parseExpr_eq_ok_iff.2 ⟨joinMethods_ne_nil head parts, _,
    parseAlternation_joinMethods hhead hparts, Alternation.reduce_methods _ es⟩

/-- **A chain of expressions and their method calls** are lines, and do the
same on every branch. -/
theorem chain_eq_methods (hhead : parseExpr head = .ok e)
    (hparts : List.Forall₂ (fun part e => parseExpr part = .ok e) parts es)
    (hlast : parseExpr last = .ok e') :
    parseStatement (joinChain (head :: parts ++ [last])) =
      .ok (.action (.chain e es (.expr e'))) ∧
    parseStatement (joinMethods (head :: parts ++ [last])) =
      .ok (.action (.eval (e.methods (es ++ [e'])))) ∧
    ∀ {σ : Type} (calls : Callables σ) (scope : Scope),
      (Action.chain e es (.expr e')).execute calls scope =
        (Action.eval (e.methods (es ++ [e']))).execute calls scope := by
  refine ⟨parseStatement_chain hhead hparts (.expr hlast), ?_,
    fun calls scope => ?_⟩
  · refine LineForm.Written.parseStatement (.expr ?_)
    exact parseExpr_joinMethods hhead
      (List.rel_append hparts (.cons hlast .nil))
  · rw [Action.execute, Action.execute, Expr.eval_methods, List.cons_append]

end Parse

end StreamScript
