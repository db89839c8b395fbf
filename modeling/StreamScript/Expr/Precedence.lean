import StreamScript.Expr.Basic

/-!
# Operands and operators folded into a tree

An expression is read as an alternation: an operand, then pairs of an operator
and an operand. `Alternation` is that shape – there is always one operand more
than there are operators – and `Alternation.reduce` makes a tree of it.

The tree is made level by level, tightest first. On each level the alternation
is walked once from the left; an operator of the level joins what stands on its
two sides, and what it made is the left side of what follows, so that equal
levels associate to the left.
-/

namespace StreamScript

/-- **Operands with operators between them.** -/
structure Alternation where
  head : Expr
  tail : List (BinaryOp × Expr)
deriving Inhabited

namespace Alternation

/-- The operands, in order. -/
def operands (a : Alternation) : List Expr :=
  a.head :: a.tail.map Prod.snd

/-- The operators, in order. -/
def operators (a : Alternation) : List BinaryOp :=
  a.tail.map Prod.fst

/-- Joins operands across the operators of one level, from the left; `left` is
the operand the walk stands on. -/
def joinLevel (level : Nat) (left : Expr) : List (BinaryOp × Expr) → Alternation
  | [] => ⟨left, []⟩
  | (op, right) :: rest =>
    if op.level = level then joinLevel level (.binary left op right) rest
    else
      let joined := joinLevel level right rest
      ⟨left, (op, joined.head) :: joined.tail⟩

/-- The levels, tightest first. -/
def levels : List Nat := [1, 2, 3, 4, 5]

/-- **The tree of an alternation.** -/
def reduce (a : Alternation) : Expr :=
  (levels.foldl (fun a level => joinLevel level a.head a.tail) a).head

/-- Joining a level leaves the operators of the other levels, in order. -/
theorem operators_joinLevel (level : Nat) (left : Expr)
    (tail : List (BinaryOp × Expr)) :
    (joinLevel level left tail).operators
      = (tail.map Prod.fst).filter fun op => op.level ≠ level := by
  induction tail generalizing left with
  | nil => rfl
  | cons pair rest ih =>
    obtain ⟨op, right⟩ := pair
    by_cases h : op.level = level
    · simp [joinLevel, h, ih]
    · have := ih right
      simp only [operators] at this
      simp [joinLevel, h, operators, this]

end Alternation

end StreamScript
