import Mathlib
import StreamScript.Expr.Precedence

/-!
# The precedence tree

An alternation is folded level by level, each level in one walk. What operators
promise is said without any walk. A tree over the operands is `Ranked` if an
operator that stands on the left of another binds at least as tightly, and one
on its right more tightly; there is one such tree over given operands and
operators (`Joined.Ranked.unique`). And what folding does can be said one
operator at a time: of the operators that are left take the tightest, the
leftmost if there are several, and join the two operands beside it
(`OperandRow.reduce`).

The three agree (`reduction_is_the_precedence_tree`). Folding goes through
stages, in which some operands are trees already. Both ways of folding are made
of one kind of step, which joins across an operator that nothing left of it
binds as tightly as and nothing right of it more tightly (`Stage.Folds`). Such
a step keeps a stage `Sound`: no tree in it is looser than an operator that is
left, and none is as loose as the operator in front of it. So what is left in
the end is ranked, whichever way it was reached, and the ways meet because
there is only one such tree.
-/

namespace StreamScript

/-! ## Trees over operands

The operands of a row are expressions, and they may be operators applied to
operands themselves, from within brackets. So what has been joined from the row
is kept in a tree of its own, with the operands at its leaves. That the tree
can be read off the expression again is not obvious and is shown for trees over
the same operands. -/

/-- **Operands joined by operators.** What stands in an operand is no part of
the tree, even if it is an operator itself. An expression in brackets is an
operand as well, and so the tree ends where the brackets begin. That is what
makes it unique: an `Expr` alone does not tell an operator of the row from one
in brackets. -/
inductive Joined where
  | operand (e : Expr)
  | join (left : Joined) (op : BinaryOp) (right : Joined)

namespace Joined

/-- The expression that a tree is. -/
def toExpr : Joined → Expr
  | operand e => e
  | join left op right => .binary left.toExpr op right.toExpr

/-- The operands, from left to right. -/
def operands : Joined → List Expr
  | operand e => [e]
  | join left _ right => left.operands ++ right.operands

/-- The operators, from left to right. -/
def operators : Joined → List BinaryOp
  | operand _ => []
  | join left op right => left.operators ++ op :: right.operators

/-- The operator at the root. -/
def root? : Joined → Option BinaryOp
  | operand _ => none
  | join _ op _ => some op

/-- **A tree in which operators bind as they should**: below an operator there
is on its left none that is looser, and on its right only a tighter one. The
two sides differ because operators of one level are joined from the left. -/
def Ranked : Joined → Prop
  | operand _ => True
  | join left op right =>
    (left.Ranked ∧ ∀ o ∈ left.root?, o.level ≤ op.level) ∧
      right.Ranked ∧ ∀ o ∈ right.root?, o.level < op.level

instance decidableRanked : DecidablePred Ranked
  | operand _ => isTrue trivial
  | join left op right =>
    have := decidableRanked left
    have := decidableRanked right
    inferInstanceAs
      (Decidable ((left.Ranked ∧ ∀ o ∈ left.root?, o.level ≤ op.level) ∧
      right.Ranked ∧ ∀ o ∈ right.root?, o.level < op.level))

variable {t u : Joined}

/-- There is one operand more than there are operators. -/
theorem length_operands (t : Joined) :
    t.operands.length = t.operators.length + 1 := by
  induction t with
  | operand e => rfl
  | join left op right ihl ihr =>
    simp only [operands, operators, List.length_append, List.length_cons,
      ihl, ihr]
    omega

/-- **The root is the loosest** of the operators. By induction on the tree: an
operator on one of the sides is no looser than the root of that side, and that
is no looser than the operator above. -/
theorem Ranked.exists_root (h : t.Ranked) {o : BinaryOp}
    (ho : o ∈ t.operators) :
    ∃ r ∈ t.root?, o.level ≤ r.level := by
  induction t with
  | operand e => cases ho
  | join left op right ihl ihr =>
    obtain ⟨⟨hleft, hleftRoot⟩, hright, hrightRoot⟩ := h
    refine ⟨op, rfl, ?_⟩
    rcases List.mem_append.1 ho with ho | ho
    · obtain ⟨r, hr, hle⟩ := ihl hleft ho
      exact Nat.le_trans hle (hleftRoot r hr)
    · rcases List.mem_cons.1 ho with rfl | ho
      · exact Nat.le_refl _
      · obtain ⟨r, hr, hle⟩ := ihr hright ho
        exact Nat.le_trans hle (Nat.le_of_lt (hrightRoot r hr))

/-- **The loosest operator of a list, the last if there are several**, has only
one place. If there were two places, each of the two operators would stand
before the other or behind it, and one of the four conditions would fail. This
is where a ranked tree is taken apart when it is shown to be the only one. -/
theorem split_at_loosest {before after before' after' : List BinaryOp}
    {op op' : BinaryOp} (h : before ++ op :: after = before' ++ op' :: after')
    (hbefore : ∀ o ∈ before, o.level ≤ op.level)
    (hafter : ∀ o ∈ after, o.level < op.level)
    (hbefore' : ∀ o ∈ before', o.level ≤ op'.level)
    (hafter' : ∀ o ∈ after', o.level < op'.level) :
    before = before' ∧ op = op' ∧ after = after' := by
  rcases List.append_eq_append_iff.1 h with
    ⟨_ | ⟨o, more⟩, rfl, hmore⟩ | ⟨_ | ⟨o, more⟩, rfl, hmore⟩
  · obtain ⟨rfl, rfl⟩ := List.cons.inj hmore
    exact ⟨(List.append_nil _).symm, rfl, rfl⟩
  · obtain ⟨rfl, rfl⟩ := List.cons.inj hmore
    have hle := hbefore' op (List.mem_append_right _ List.mem_cons_self)
    have hlt := hafter op' (List.mem_append_right _ List.mem_cons_self)
    omega
  · obtain ⟨rfl, rfl⟩ := List.cons.inj hmore
    exact ⟨List.append_nil _, rfl, rfl⟩
  · obtain ⟨rfl, rfl⟩ := List.cons.inj hmore
    have hle := hbefore op' (List.mem_append_right _ List.mem_cons_self)
    have hlt := hafter' op (List.mem_append_right _ List.mem_cons_self)
    omega

/-- **There is one ranked tree** over given operands and operators. Its root is
the loosest operator, and of several such the last, so the row is cut there and
both sides are ranked trees over less. -/
theorem Ranked.unique (ht : t.Ranked) (hu : u.Ranked)
    (hoperands : t.operands = u.operands)
    (hoperators : t.operators = u.operators) : t = u := by
  induction t generalizing u with
  | operand e =>
    cases u with
    | operand e' => exact congrArg operand (List.singleton_inj.1 hoperands)
    | join left op right =>
      exact absurd hoperators.symm (List.append_ne_nil_of_right_ne_nil _ nofun)
  | join left op right ihl ihr =>
    cases u with
    | operand e =>
      exact absurd hoperators (List.append_ne_nil_of_right_ne_nil _ nofun)
    | join left' op' right' =>
      obtain ⟨⟨hleft, hleftRoot⟩, hright, hrightRoot⟩ := ht
      obtain ⟨⟨hleft', hleftRoot'⟩, hright', hrightRoot'⟩ := hu
      have atMost : ∀ {s : Joined} {k : Nat}, s.Ranked →
          (∀ o ∈ s.root?, o.level ≤ k) →
          ∀ o ∈ s.operators, o.level ≤ k := fun hs hroot o ho =>
        let ⟨r, hr, hle⟩ := hs.exists_root ho
        Nat.le_trans hle (hroot r hr)
      have below : ∀ {s : Joined} {k : Nat}, s.Ranked →
          (∀ o ∈ s.root?, o.level < k) →
          ∀ o ∈ s.operators, o.level < k := fun hs hroot o ho =>
        let ⟨r, hr, hle⟩ := hs.exists_root ho
        Nat.lt_of_le_of_lt hle (hroot r hr)
      obtain ⟨hl, rfl, hr⟩ :=
        split_at_loosest hoperators (atMost hleft hleftRoot)
        (below hright hrightRoot) (atMost hleft' hleftRoot')
        (below hright' hrightRoot')
      obtain ⟨hl', hr'⟩ := List.append_inj hoperands
        (by rw [length_operands, length_operands, hl])
      rw [ihl hleft hleft' hl' hl, ihr hright hright' hr' hr]

/-- How large the expression of a tree is, whatever joins what. -/
theorem sizeOf_toExpr (t : Joined) :
    sizeOf t.toExpr =
      (t.operands.map sizeOf).sum
      + (t.operators.map fun op => 1 + sizeOf op).sum := by
  induction t with
  | operand e => simp [toExpr, operands, operators]
  | join left op right ihl ihr =>
    simp only [toExpr, operands, operators, Expr.binary.sizeOf_spec, ihl, ihr,
      List.map_append, List.sum_append, List.map_cons, List.sum_cons]
    omega

/-- A tree over more of the same operands is a larger expression. -/
theorem sizeOf_lt_of_length_lt {es es' : List Expr} {ops ops' : List BinaryOp}
    (hoperands : t.operands ++ es = u.operands ++ es')
    (hoperators : t.operators ++ ops = u.operators ++ ops')
    (hlt : t.operators.length < u.operators.length) :
    sizeOf t.toExpr < sizeOf u.toExpr := by
  have hle : t.operands.length ≤ u.operands.length := by
    rw [length_operands, length_operands]
    omega
  obtain ⟨more, hmore⟩ :=
    List.prefix_of_prefix_length_le (List.prefix_append t.operands es)
    (hoperands ▸ List.prefix_append u.operands es') hle
  obtain ⟨moreOps, hmoreOps⟩ := List.prefix_of_prefix_length_le
    (List.prefix_append t.operators ops)
    (hoperators ▸ List.prefix_append u.operators ops') (Nat.le_of_lt hlt)
  cases moreOps with
  | nil =>
    rw [← hmoreOps, List.append_nil] at hlt
    exact absurd hlt (Nat.lt_irrefl _)
  | cons op moreOps =>
    simp only [sizeOf_toExpr, ← hmore, ← hmoreOps, List.map_append,
      List.sum_append, List.map_cons, List.sum_cons]
    omega

/-- **The expression shows the tree** over given operands and operators: where
an operand is an operator itself, there is still only one way to tell what has
been joined. -/
theorem eq_of_toExpr_eq (h : t.toExpr = u.toExpr)
    (hoperands : t.operands = u.operands)
    (hoperators : t.operators = u.operators) : t = u := by
  induction t generalizing u with
  | operand e =>
    cases u with
    | operand e' => exact congrArg operand (List.singleton_inj.1 hoperands)
    | join left op right =>
      exact absurd hoperators.symm (List.append_ne_nil_of_right_ne_nil _ nofun)
  | join left op right ihl ihr =>
    cases u with
    | operand e =>
      exact absurd hoperators (List.append_ne_nil_of_right_ne_nil _ nofun)
    | join left' op' right' =>
      obtain ⟨hleft, rfl, hright⟩ := Expr.binary.inj h
      have hlength : left.operators.length = left'.operators.length := by
        rcases Nat.lt_trichotomy left.operators.length
            left'.operators.length with hlt | heq | hlt
        · have := sizeOf_lt_of_length_lt hoperands hoperators hlt
          rw [hleft] at this
          exact absurd this (Nat.lt_irrefl _)
        · exact heq
        · have := sizeOf_lt_of_length_lt hoperands.symm hoperators.symm hlt
          rw [hleft] at this
          exact absurd this (Nat.lt_irrefl _)
      obtain ⟨hl, hr⟩ := List.append_inj hoperators hlength
      obtain ⟨hl', hr'⟩ := List.append_inj hoperands
        (by rw [length_operands, length_operands, hl])
      rw [ihl hleft hl' hl, ihr hright hr' (List.cons.inj hr).2]

end Joined

/-! ## One operator at a time

Folding by the tightest operator is written with two lists and positions in
them, as it would be done in place. Every access may miss, and a row may have
too many operands; both are faults, and one operand more than operators is what
excludes them. -/

/-- What keeps a row from being folded. -/
inductive RowFault where
  /-- There is nothing at the place that is looked at. -/
  | outOfRange
  /-- No operator is left, but not one operand either. -/
  | malformed
deriving DecidableEq, Repr

/-- **Operands and operators**, each in a list of their own. There is one
operand more than there are operators, but the two lists do not say so;
`reduce` has an error for each way in which a row may fail to be one. -/
structure OperandRow where
  operands : List Expr
  operators : List BinaryOp

namespace OperandRow

/-- Takes out the element at a place. -/
def takeOut? {α : Type} (xs : List α) (i : Nat) : Option (α × List α) :=
  xs[i]?.map fun x => (x, xs.eraseIdx i)

/-- The place of the tightest operator, the leftmost if there are several. -/
def tightest? (operators : List BinaryOp) : Option Nat :=
  (operators.map BinaryOp.level).min?.map fun least =>
    (operators.findIdx? fun op => op.level == least).getD 0

/-- Joins the two operands beside the operator at a place. -/
def joinAt? (row : OperandRow) (i : Nat) : Option OperandRow := do
  let (op, operators) ← takeOut? row.operators i
  let (right, operands) ← takeOut? row.operands (i + 1)
  let left ← operands[i]?
  return ⟨operands.set i (.binary left op right), operators⟩

theorem length_operators_of_joinAt? {row row' : OperandRow} {i : Nat}
    (h : row.joinAt? i = some row') :
    row'.operators.length < row.operators.length := by
  simp only [joinAt?, takeOut?, bind, pure, Option.bind_eq_some_iff,
    Option.map_eq_some_iff] at h
  obtain ⟨_, ⟨op, hop, rfl⟩, _, _, _, _, h⟩ := h
  obtain rfl := Option.some.inj h
  obtain ⟨hi, -⟩ := List.getElem?_eq_some_iff.1 hop
  rw [List.length_eraseIdx_of_lt hi]
  omega

/-- **Folds a row**: joins across the tightest operator, the leftmost if there
are several, until none is left. The operator is looked for anew after every
join, in the list of those that are left. The recursion ends because a join
takes one away. -/
def reduce (row : OperandRow) : Except RowFault Expr :=
  match tightest? row.operators with
  | some i =>
    match _h : row.joinAt? i with
    | some row' => reduce row'
    | none => .error .outOfRange
  | none =>
    match row.operands with
    | [e] => .ok e
    | _ => .error .malformed
termination_by row.operators.length
decreasing_by exact length_operators_of_joinAt? _h

end OperandRow

/-! ## Stages

A stage is a row whose operands are trees. A step joins two neighbours across
an operator that is as tight as any behind it and tighter than all in front.
Which steps are made is left open: both ways of folding make steps of this
kind, in different orders. -/

/-- **A stage of folding**: trees with operators between them. The trees
remember what they have been joined from. Both ways of folding are read off a
stage by forgetting this (`toRow`, `toAlternation`), so that a statement about
stages is one about both. -/
structure Stage where
  head : Joined
  tail : List (BinaryOp × Joined)

namespace Stage

/-- The stage as an alternation of expressions. -/
def toAlternation (s : Stage) : Alternation :=
  ⟨s.head.toExpr, s.tail.map fun (op, t) => (op, t.toExpr)⟩

/-- The stage as a row. -/
def toRow (s : Stage) : OperandRow :=
  ⟨s.toAlternation.operands, s.toAlternation.operators⟩

/-- The operands of all trees, in order. -/
def operands (s : Stage) : List Expr :=
  s.head.operands ++ s.tail.flatMap fun (_, t) => t.operands

/-- All operators, joined or not, in order. -/
def operators (s : Stage) : List BinaryOp :=
  s.head.operators ++ s.tail.flatMap fun (op, t) => op :: t.operators

/-- **One step of folding**: joins across an operator of a level. None before
it is so tight, and none behind it is tighter. The condition on the operators
before it is `there`, which passes over looser ones only; the one on those
behind it is `hrest`. -/
inductive Folds (level : Nat) : Stage → Stage → Prop
  | here {left right : Joined} {op : BinaryOp} {rest : List (BinaryOp × Joined)}
      (hop : op.level = level) (hrest : ∀ p ∈ rest, level ≤ p.1.level) :
      Folds level ⟨left, (op, right) :: rest⟩ ⟨.join left op right, rest⟩
  | there {left right right' : Joined} {op : BinaryOp}
      {rest rest' : List (BinaryOp × Joined)} (hop : level < op.level)
      (h : Folds level ⟨right, rest⟩ ⟨right', rest'⟩) :
      Folds level ⟨left, (op, right) :: rest⟩ ⟨left, (op, right') :: rest'⟩

/-- **Steps of folding**, on any levels. A run of either way of folding is such
a chain. The levels go up along it, but that need not be said here, because a
sound stage has only one level at which it can go on. -/
def Leads : Stage → Stage → Prop :=
  Relation.ReflTransGen fun s s' => ∃ level, Folds level s s'

/-- **A tree behind an operator**, where folding has come to a level: the tree
is ranked, its root is not looser than that level, and tighter than the
operator; the operator is not tighter than that level. -/
structure Trails (level : Nat) (op : BinaryOp) (t : Joined) : Prop where
  ranked : t.Ranked
  le : ∀ o ∈ t.root?, o.level ≤ level
  lt : ∀ o ∈ t.root?, o.level < op.level
  left_over : level ≤ op.level

/-- **A sound stage**, where folding has come to a level. No tree that has been
joined has a root looser than the level, and what is still to be joined is no
tighter. -/
structure Sound (level : Nat) (s : Stage) : Prop where
  ranked : s.head.Ranked
  le : ∀ o ∈ s.head.root?, o.level ≤ level
  tail : ∀ p ∈ s.tail, Trails level p.1 p.2

theorem Trails.mono {k level : Nat} {op : BinaryOp} {t : Joined}
    (h : Trails k op t) (hk : k ≤ level) (hop : level ≤ op.level) :
    Trails level op t :=
  ⟨h.ranked, fun o ho => Nat.le_trans (h.le o ho) hk, h.lt, hop⟩

variable {level : Nat} {s s' : Stage}

namespace Folds

/-- **A step keeps a stage sound**, on a level that is no tighter. The tree
that is joined has the operator of the step as its root, to its left a tree
whose root is no looser, and to its right one whose root is tighter, since all
of a tighter level has been joined before. -/
theorem sound {k : Nat} (h : Folds level s s') (hs : Sound k s) :
    k ≤ level ∧ Sound level s' := by
  induction h with
  | here hop hrest =>
    obtain ⟨hright, htail⟩ := List.forall_mem_cons.1 hs.tail
    have hk : k ≤ level := hop ▸ hright.left_over
    refine ⟨hk, ⟨⟨hs.ranked, fun o ho => ?_⟩, hright.ranked, hright.lt⟩, ?_,
      fun p hp => ?_⟩
    · exact Nat.le_trans (hs.le o ho) hright.left_over
    · rintro _ ⟨⟩
      exact Nat.le_of_eq hop
    · exact (htail p hp).mono hk (hrest p hp)
  | there hop _ ih =>
    obtain ⟨hright, htail⟩ := List.forall_mem_cons.1 hs.tail
    obtain ⟨hk, hinner⟩ := ih ⟨hright.ranked, hright.le, htail⟩
    refine ⟨hk, hs.ranked, fun o ho => Nat.le_trans (hs.le o ho) hk,
      List.forall_mem_cons.2
        ⟨⟨hinner.ranked, hinner.le, fun o ho => ?_, Nat.le_of_lt hop⟩,
          hinner.tail⟩⟩
    exact Nat.lt_of_le_of_lt (hinner.le o ho) hop

/-- **A step leaves operands and operators** where they are. A join takes two
neighbouring trees together and does not exchange them. -/
theorem in_order (h : Folds level s s') :
    s'.operands = s.operands ∧ s'.operators = s.operators := by
  induction h with
  | here hop hrest =>
    simp [operands, operators, Joined.operands, Joined.operators]
  | there hop _ ih =>
    simp only [operands, operators, List.flatMap_cons] at ih ⊢
    simp only [List.cons_append]
    exact ⟨by rw [ih.1], by rw [ih.2]⟩

/-- A step joins across one operator. -/
theorem length_tail (h : Folds level s s') :
    s.tail.length = s'.tail.length + 1 := by
  induction h with
  | here => rfl
  | there _ _ ih => exact congrArg (· + 1) ih

/-- No operator is tighter than the one of a step. -/
theorem le_of_mem (h : Folds level s s') : ∀ p ∈ s.tail, level ≤ p.1.level := by
  induction h with
  | here hop hrest =>
    exact List.forall_mem_cons.2 ⟨Nat.le_of_eq hop.symm, hrest⟩
  | there hop _ ih => exact List.forall_mem_cons.2 ⟨Nat.le_of_lt hop, ih⟩

/-- The operator of a step is one of those of the stage. -/
theorem exists_mem (h : Folds level s s') :
    ∃ p ∈ s.tail, p.1.level = level := by
  induction h with
  | here hop _ => exact ⟨_, List.mem_cons_self, hop⟩
  | there _ _ ih =>
    obtain ⟨p, hp, hlevel⟩ := ih
    exact ⟨p, List.mem_cons_of_mem _ hp, hlevel⟩

end Folds

/-- **As long as operators are left there is a step.** A tightest operator with
nothing as tight before it can always be found; the induction goes along the
tail and takes the first operator if none behind it is tighter. -/
theorem exists_folds (head : Joined) {tail : List (BinaryOp × Joined)}
    (h : tail ≠ []) :
    ∃ level s', Folds level ⟨head, tail⟩ s' := by
  induction tail generalizing head with
  | nil => exact absurd rfl h
  | cons pair rest ih =>
    obtain ⟨op, right⟩ := pair
    by_cases hleast : ∀ p ∈ rest, op.level ≤ p.1.level
    · exact ⟨op.level, _, .here rfl hleast⟩
    · obtain ⟨p, hp, hlt⟩ : ∃ p ∈ rest, p.1.level < op.level := by
        simpa using hleast
      obtain ⟨level, ⟨right', rest'⟩, hfolds⟩ :=
        ih right (List.ne_nil_of_mem hp)
      exact ⟨level, _,
        .there (Nat.lt_of_le_of_lt (hfolds.le_of_mem p hp) hlt) hfolds⟩

namespace Leads

/-- **Steps keep a stage sound.** It begins at whatever level the stage is at
and ends at some level; which one does not matter at the end. -/
theorem sound {k : Nat} (h : Leads s s') (hs : Sound k s) :
    ∃ level, Sound level s' := by
  induction h with
  | refl => exact ⟨k, hs⟩
  | tail _ hstep ih =>
    obtain ⟨level, hsound⟩ := ih
    obtain ⟨level', hfolds⟩ := hstep
    exact ⟨level', (hfolds.sound hsound).2⟩

/-- Steps on one level are steps. -/
theorem of_steps (h : Relation.ReflTransGen (Folds level) s s') :
    Leads s s' := by
  induction h with
  | refl => exact .refl
  | tail _ hstep ih => exact ih.tail ⟨level, hstep⟩

theorem in_order (h : Leads s s') :
    s'.operands = s.operands ∧ s'.operators = s.operators := by
  induction h with
  | refl => exact ⟨rfl, rfl⟩
  | tail _ hstep ih =>
    obtain ⟨level, hfolds⟩ := hstep
    exact ⟨hfolds.in_order.1.trans ih.1, hfolds.in_order.2.trans ih.2⟩

end Leads

/-! ## Both ways of folding

Folding level by level goes through the row once for each level, and joins to
the left as it goes. Folding by the tightest operator looks for it anew each
time. Each of them is followed until one tree is left, with a step of a stage
for each join. -/

/-- Steps behind an operator that is looser than all that is joined there. -/
theorem steps_there {head : Joined} {op : BinaryOp} (hop : level < op.level)
    (h : Relation.ReflTransGen (Folds level) s s') :
    Relation.ReflTransGen (Folds level) ⟨head, (op, s.head) :: s.tail⟩
      ⟨head, (op, s'.head) :: s'.tail⟩ := by
  induction h with
  | refl => exact .refl
  | tail _ hstep ih => exact ih.tail (.there hop hstep)

/-- **Joining across one level** is done in steps, where none is tighter. One
pass over the row joins across all operators of the level, the leftmost first.
Each of these joins is a step, because none that is left is tighter. -/
theorem joinLevel_steps (level : Nat) (head : Joined)
    {tail : List (BinaryOp × Joined)} (h : ∀ p ∈ tail, level ≤ p.1.level) :
    ∃ s', Relation.ReflTransGen (Folds level) ⟨head, tail⟩ s' ∧
      Alternation.joinLevel level head.toExpr
        (tail.map fun (op, t) => (op, t.toExpr)) = s'.toAlternation ∧
        ∀ p ∈ s'.tail, level < p.1.level := by
  induction tail generalizing head with
  | nil => exact ⟨⟨head, []⟩, .refl, rfl, nofun⟩
  | cons pair rest ih =>
    obtain ⟨op, right⟩ := pair
    obtain ⟨hop, hrest⟩ := List.forall_mem_cons.1 h
    rw [List.map_cons, Alternation.joinLevel]
    by_cases heq : op.level = level
    · obtain ⟨s', hsteps, hjoin, hlt⟩ := ih (.join head op right) hrest
      refine ⟨s', .head (.here heq hrest) hsteps, ?_, hlt⟩
      rw [if_pos heq]
      exact hjoin
    · obtain ⟨s', hsteps, hjoin, hlt⟩ := ih right hrest
      have hgt : level < op.level := Nat.lt_of_le_of_ne hop (Ne.symm heq)
      refine ⟨⟨head, (op, s'.head) :: s'.tail⟩, steps_there hgt hsteps, ?_,
        List.forall_mem_cons.2 ⟨hgt, hlt⟩⟩
      rw [if_neg heq, hjoin]
      rfl

/-- **Joining across several levels**, one behind the other. After the first
`n` levels no operator of them is left, which is what the pass for the next
level needs. -/
theorem joinLevels_steps (n k : Nat) (s : Stage)
    (h : ∀ p ∈ s.tail, k ≤ p.1.level) :
    ∃ s', Leads s s' ∧
      (List.range' k n).foldl
        (fun a level => Alternation.joinLevel level a.head a.tail)
        s.toAlternation = s'.toAlternation ∧ ∀ p ∈ s'.tail,
        k + n ≤ p.1.level := by
  induction n generalizing k s with
  | zero => exact ⟨s, .refl, rfl, h⟩
  | succ n ih =>
    obtain ⟨s', hsteps, hjoin, hlt⟩ := joinLevel_steps k s.head h
    obtain ⟨s'', hleads, hjoins, hle⟩ := ih (k + 1) s' hlt
    refine ⟨s'', .trans (Leads.of_steps hsteps) hleads, ?_, fun p hp => ?_⟩
    · rw [List.range'_succ, List.foldl_cons, ← hjoins, ← hjoin]
      rfl
    · have := hle p hp
      omega

/-- **Folding level by level** is done in steps, until no operator is left.
There are five levels of operators, and the passes go through them from the
tightest to the loosest. -/
theorem reduce_toAlternation (s : Stage) :
    ∃ t, Leads s ⟨t, []⟩ ∧ s.toAlternation.reduce = t.toExpr := by
  have hlevels : ∀ op : BinaryOp, 1 ≤ op.level ∧ op.level < 6 := by
    intro op
    cases op <;> decide
  obtain ⟨⟨t, tail⟩, hleads, hjoin, hle⟩ :=
    joinLevels_steps 5 1 s fun p _ => (hlevels p.1).1
  obtain rfl : tail = [] :=
    List.eq_nil_iff_forall_not_mem.2 fun p hp => Nat.not_le.2 (hlevels p.1).2
      (hle p hp)
  exact ⟨t, hleads, congrArg Alternation.head hjoin⟩

end Stage

/-- Joining behind the first operand and the first operator. -/
theorem OperandRow.joinAt?_succ (e : Expr) (es : List Expr) (op : BinaryOp)
    (ops : List BinaryOp) (i : Nat) :
    joinAt? ⟨e :: es, op :: ops⟩ (i + 1) = (joinAt? ⟨es, ops⟩ i).map fun row =>
      ⟨e :: row.operands, op :: row.operators⟩ := by
  unfold joinAt? takeOut?
  simp only [List.getElem?_cons_succ, List.eraseIdx_cons_succ, bind, pure]
  cases ops[i]? with
  | none => rfl
  | some op' =>
    cases es[i + 1]? with
    | none => rfl
    | some right => cases h : (es.eraseIdx (i + 1))[i]? <;> simp [h]

namespace Stage

variable {level : Nat} {s s' : Stage}

/-- **A step on a row**: the operator it joins across is the leftmost of the
tightest, and all places it looks at are there. The two operands it joins stand
at the place of the operator and at the next one. -/
theorem Folds.joinAt? (h : Folds level s s') :
    ∃ i, OperandRow.tightest? s.toRow.operators = some i ∧
      s.toRow.joinAt? i = some s'.toRow := by
  have hleast : (s.toRow.operators.map BinaryOp.level).min? = some level := by
    obtain ⟨p, hp, hlevel⟩ := h.exists_mem
    simp only [toRow, toAlternation, Alternation.operators, List.map_map,
      List.min?_eq_some_iff]
    exact ⟨List.mem_map.2 ⟨p, hp, hlevel⟩, List.forall_mem_map.2 h.le_of_mem⟩
  have hplace : ∃ i, (s.toRow.operators.findIdx? fun op => op.level == level)
      = some i ∧
      s.toRow.joinAt? i = some s'.toRow := by
    clear hleast
    induction h with
    | here hop _ =>
      refine ⟨0, ?_, rfl⟩
      simp [toRow, toAlternation, Alternation.operators,
        List.findIdx?_cons, hop]
    | @there left right right' op rest rest' hop _ ih =>
      obtain ⟨i, hi, hjoin⟩ := ih
      refine ⟨i + 1, ?_, ?_⟩
      · have hne : (op.level == level) = false :=
          beq_eq_false_iff_ne.2 (Nat.ne_of_gt hop)
        simp only [toRow, toAlternation, Alternation.operators,
          List.map_cons] at hi ⊢
        rw [List.findIdx?_cons, hne, hi]
        rfl
      · exact (OperandRow.joinAt?_succ _ _ _ _ i).trans
          (congrArg (Option.map _) hjoin)
  obtain ⟨i, hi, hjoin⟩ := hplace
  exact ⟨i, by
    rw [OperandRow.tightest?, hleast, Option.map_some, hi, Option.getD_some],
      hjoin⟩

/-- **Folding a row** is done in steps, until no operator is left. The
induction is on the number of operators that are left, as in the definition of
`reduce`. It never meets one of its errors. -/
theorem reduce_toRow (s : Stage) :
    ∃ t, Leads s ⟨t, []⟩ ∧ s.toRow.reduce = .ok t.toExpr := by
  induction hn : s.tail.length generalizing s with
  | zero =>
    obtain ⟨t, tail⟩ := s
    obtain rfl := List.eq_nil_of_length_eq_zero hn
    exact ⟨t, .refl, by rw [OperandRow.reduce]; rfl⟩
  | succ n ih =>
    obtain ⟨level, s', hfolds⟩ :=
      exists_folds s.head (List.ne_nil_of_length_eq_add_one hn)
    obtain ⟨t, hleads, hreduce⟩ :=
      ih s' (Nat.succ.inj (hfolds.length_tail.symm.trans hn))
    obtain ⟨i, htightest, hjoin⟩ := hfolds.joinAt?
    refine ⟨t, .head ⟨level, hfolds⟩ hleads, ?_⟩
    rw [OperandRow.reduce, htightest]
    dsimp only
    split
    · next row' hrow =>
      obtain rfl := Option.some.inj (hjoin.symm.trans hrow)
      exact hreduce
    · next hrow => cases hjoin.symm.trans hrow

/-- What is read, before anything is joined. -/
def start (a : Alternation) : Stage :=
  ⟨.operand a.head, a.tail.map fun (op, e) => (op, .operand e)⟩

theorem toAlternation_start (a : Alternation) :
    (start a).toAlternation = a := by
  simp [start, toAlternation, Joined.toExpr, Function.comp_def]

/-- Nothing has been joined yet. -/
theorem sound_start (a : Alternation) : Sound 0 (start a) := by
  refine ⟨trivial, nofun, List.forall_mem_map.2 fun p _ => ?_⟩
  exact ⟨trivial, nofun, nofun, Nat.zero_le _⟩

/-- At the beginning the operands of the trees are the operands, -/
theorem operands_start (a : Alternation) : (start a).operands = a.operands := by
  unfold start operands
  rw [List.flatMap_map]
  exact congrArg (a.head :: ·) List.map_eq_flatMap.symm

/-- and all operators are between trees. -/
theorem operators_start (a : Alternation) :
    (start a).operators = a.operators := by
  unfold start operators
  rw [List.flatMap_map]
  exact List.map_eq_flatMap.symm

/-- **Whatever leads to one tree** makes a ranked tree over all operands and
operators. With `Ranked.unique` there is only one such tree, so the two ways of
folding, which both lead to one, make the same. -/
theorem Leads.ranked {a : Alternation} {t : Joined}
    (h : Leads (start a) ⟨t, []⟩) :
    t.Ranked ∧ t.operands = a.operands ∧ t.operators = a.operators := by
  obtain ⟨level, hsound⟩ := h.sound (sound_start a)
  obtain ⟨hoperands, hoperators⟩ := h.in_order
  rw [operands_start, operands, List.flatMap_nil, List.append_nil] at hoperands
  rw [operators_start, operators, List.flatMap_nil,
    List.append_nil] at hoperators
  exact ⟨hsound.ranked, hoperands, hoperators⟩

end Stage

/-! ## The tree

What folding leads to is ranked, since it began with a sound stage, and it is
over the same operands and operators. As there is one such tree only, it is the
same for both ways. -/

/-- One operand more than there are operators makes an alternation. -/
theorem Alternation.exists_of_length {operands : List Expr}
    {operators : List BinaryOp} (h : operands.length = operators.length + 1) :
    ∃ a : Alternation, a.operands = operands ∧ a.operators = operators := by
  obtain ⟨e, es, rfl⟩ := List.exists_cons_of_length_eq_add_one h
  have hlength : es.length = operators.length := Nat.succ.inj h
  refine ⟨⟨e, operators.zip es⟩, ?_,
    List.map_fst_zip (Nat.le_of_eq hlength.symm)⟩
  exact congrArg (e :: ·) (List.map_snd_zip (Nat.le_of_eq hlength))

/-- **Folding builds the precedence tree.** Over one operand more than there
are operators, a row folds without a fault, and what comes of it is a tree over
these operands and operators in their order: the one ranked tree there is.
Folding level by level comes to the same. Nothing else that the operands and
operators can be joined to is the expression that comes out, so that the
expression shows what has been joined. -/
theorem reduction_is_the_precedence_tree (operands : List Expr)
    (operators : List BinaryOp) (h : operands.length = operators.length + 1) :
    ∃ t : Joined, t.operands = operands ∧ t.operators = operators ∧
      OperandRow.reduce ⟨operands, operators⟩ = .ok t.toExpr ∧
      (∀ a : Alternation, a.operands = operands → a.operators = operators →
        a.reduce = t.toExpr) ∧
      ∀ u : Joined, u.operands = operands → u.operators = operators →
        (u.Ranked ↔ u = t) ∧ (u.toExpr = t.toExpr ↔ u = t) := by
  obtain ⟨a, rfl, rfl⟩ := Alternation.exists_of_length h
  obtain ⟨t, hleads, hrow⟩ := Stage.reduce_toRow (.start a)
  obtain ⟨hranked, hoperands, hoperators⟩ := hleads.ranked
  rw [Stage.toRow, Stage.toAlternation_start] at hrow
  refine ⟨t, hoperands, hoperators, hrow, fun b hb hb' => ?_,
    fun u hu hu' => ⟨⟨?_, ?_⟩, ?_, ?_⟩⟩
  · obtain ⟨t', hleads', hreduce⟩ := Stage.reduce_toAlternation (.start b)
    obtain ⟨hranked', hoperands', hoperators'⟩ := hleads'.ranked
    rw [Stage.toAlternation_start] at hreduce
    rw [hreduce,
      hranked.unique hranked' (hoperands.trans (hb.symm.trans hoperands'.symm))
      (hoperators.trans (hb'.symm.trans hoperators'.symm))]
  · exact fun hu'' => hu''.unique hranked (hu.trans hoperands.symm)
      (hu'.trans hoperators.symm)
  · rintro rfl
    exact hranked
  · exact fun hexpr =>
      Joined.eq_of_toExpr_eq hexpr (hu.trans hoperands.symm)
        (hu'.trans hoperators.symm)
  · rintro rfl
    rfl

/-- A subtraction whose right operand is a product, in a row of subtractions. -/
theorem subtractions_fold_from_the_left :
    ([.name "a", .name "b", .name "c", .name "d"] : List Expr).length =
        [BinaryOp.sub, .mul, .sub].length + 1 ∧
      OperandRow.reduce ⟨[.name "a", .name "b", .name "c", .name "d"],
        [.sub, .mul, .sub]⟩
          = .ok
          (.binary
            (.binary (.name "a") .sub (.binary (.name "b") .mul (.name "c")))
            .sub (.name "d")) := by
  refine ⟨rfl, ?_⟩
  obtain ⟨t, -, -, hrow, -, hunique⟩ := reduction_is_the_precedence_tree
    [.name "a", .name "b", .name "c", .name "d"] [.sub, .mul, .sub] rfl
  let tree : Joined := .join (.join (.operand (.name "a")) .sub
    (.join (.operand (.name "b")) .mul (.operand (.name "c")))) .sub
    (.operand (.name "d"))
  have htree : tree = t := (hunique tree rfl rfl).1.1 (by decide)
  rw [hrow, ← htree]
  rfl

end StreamScript
