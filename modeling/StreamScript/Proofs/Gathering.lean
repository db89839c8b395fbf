import StreamScript.Proofs.Leaves
import StreamScript.Proofs.Moves

/-!
# Closing a scope on many branches

A scope is closed on all the branches it was opened on in one go, and in the
middle of it the arena is a mixture: some branches have received their values,
others still have their children, and the children of those seen to are empty.
This module says that none of this shows. Every branch comes to what it would
come to if it were the only one (`Arena.comesTo`), since it shares no child with
another and nothing that it sees is touched (`Arena.Foldable`). So closing a
scope is a single change of the arena (`Arena.gather`), made with values that
can all be read off before it (`Drive.closeScope_result`).
-/

namespace StreamScript

variable {σ : Type} {host : Host σ} {calls : Callables σ} {w : World σ}

namespace Arena

variable {a b : Arena} {n k i : Nat} {target : Option String}
    {parents : List Nat}

/-! ## What a branch comes to

When a scope is closed a branch looks at three things: at its children, at what
it holds, and at what it can see above it. The lemmas say that nothing else of
the arena counts. Its own children are taken out before the fold, and that does
not change what it sees. -/

/-- **A branch sees the same** in two arenas if it is the same but for its
children, and if the same is above it. -/
theorem scopeOf_congr (habove : b.above i = a.above i)
    (hi : b.branches[i]?.map Branch.childless
      = a.branches[i]?.map Branch.childless) :
    b.scopeOf i = a.scopeOf i := by
  cases ha : a.branches[i]? with
  | none =>
    rw [ha, Option.map_none, Option.map_eq_none_iff] at hi
    unfold scopeOf branch
    rw [ha, hi]
    rfl
  | some x =>
    rw [ha] at hi
    obtain ⟨y, hy, hxy⟩ := Option.map_eq_some_iff.1 hi
    obtain ⟨hstream, hlocals, hindex, -, -, -⟩ := Branch.mk.inj hxy
    rw [scopeOf_eq ha, scopeOf_eq hy, habove, hstream, hindex, hlocals]

/-- Taking the children of a branch is of no matter to what can be seen from
it. -/
theorem scopeOf_drain (h : a.Downward) (id : Nat) :
    (a.drain id).scopeOf id = a.scopeOf id := by
  refine scopeOf_congr (above_eq_of_forall (fun j => ?_) id) ?_
  · rw [getElem?_drain h]
    split
    · rw [Option.map_map]
      rfl
    · split
      · rw [Option.map_map]
        rfl
      · rfl
  · rw [getElem?_drain h, if_pos rfl, Option.map_map]
    rfl

/-- The children of a branch have come to the same in two arenas in which they
are the same. -/
theorem yieldsOf_congr (hi : b.branches[i]? = a.branches[i]?)
    (hc : ∀ j ∈ a.childrenOf i, b.branches[j]? = a.branches[j]?) :
    b.yieldsOf i = a.yieldsOf i := by
  unfold yieldsOf branch
  unfold childrenOf at hc
  rw [hi]
  cases ha : a.branches[i]? with
  | none => rfl
  | some x =>
    rw [ha] at hc
    show x.children.mapM _ = x.children.mapM _
    change ∀ j ∈ x.children, b.branches[j]? = a.branches[j]? at hc
    generalize x.children = ids at hc ⊢
    induction ids with
    | nil => rfl
    | cons j js ih =>
      obtain ⟨hj, hjs⟩ := List.forall_mem_cons.1 hc
      rw [List.mapM_cons, List.mapM_cons, ih hjs, hj]

/-- **What the elements of a scope come to** on a branch: they are folded into
one value. -/
def comesTo (a : Arena) (calls : Callables σ) (form : ScopeForm) (i : Nat) :
    Act σ Value := do
  let yields ← a.yieldsOf i
  a.folded calls form i yields

/-- What a fold comes to does not depend on the world. -/
theorem steady_folded (hc : calls.Steady) (a : Arena) (form : ScopeForm)
    (i : Nat) (yields : List Yield) : (a.folded calls form i yields).Steady :=
  folded_related Act.steady_closed hc a form i yields

/-- A fold looks at the branch only for what it sees. -/
theorem folded_congr (h : b.scopeOf i = a.scopeOf i) (form : ScopeForm)
    (yields : List Yield) :
    b.folded calls form i yields = a.folded calls form i yields := by
  unfold folded
  rw [h]

/-- So a branch with the same children that sees the same comes to the same. -/
theorem comesTo_congr (hy : b.yieldsOf i = a.yieldsOf i)
    (hs : b.scopeOf i = a.scopeOf i) (form : ScopeForm) :
    b.comesTo calls form i = a.comesTo calls form i := by
  unfold comesTo
  rw [hy]
  exact congrArg _ (funext fun yields => folded_congr hs form yields)

/-! ## Branches that a scope can be folded into

The parents of a scope lie in one layer. Above it is what they see, below it
their children. If this is all that is known of them (`Foldable`), a fold into
one is not noticed by the others: it changes the parent itself, which no other
sees, and the children of the parent, which no other has. -/

/-- **Branches that do not get in each other's way** when a scope is folded
into them: they lie between two positions, what they see lies in front, their
children behind, and no two of them share one. -/
structure Foldable (a : Arena) (n k : Nat) (parents : List Nat) : Prop where
  downward : a.Downward
  range : ∀ i ∈ parents, n ≤ i ∧ i < k
  parent_lt : ∀ i ∈ parents, ∀ up, a.branches[i]?.bind Branch.parent = some up →
    up < n
  le_child : ∀ i ∈ parents, ∀ j ∈ a.childrenOf i, k ≤ j
  nodup : parents.Nodup
  disjoint : parents.Pairwise fun i i' => ∀ j ∈ a.childrenOf i',
    j ∉ a.childrenOf i

/-- The arena after a scope has been folded into a branch. -/
def fold (a : Arena) (target : Option String) (i : Nat) (v : Value) : Arena :=
  (a.drain i).receive target i v

/-- **A branch after a fold** into one of them. -/
theorem getElem?_fold (h : a.Downward) (target : Option String) (i : Nat)
    (v : Value) (j : Nat) :
    (a.fold target i v).branches[j]? =
      if j = i then a.branches[j]?.map fun b => (Branch.childless b).receive
      target v
      else if j ∈ a.childrenOf i then a.branches[j]?.map Branch.emptied
      else a.branches[j]? := by
  show (Arena.modify (a.drain i) i (Branch.receive target v)).branches[j]? = _
  rw [getElem?_modify, getElem?_drain h]
  split
  · rw [Option.map_map]
    rfl
  · rfl

/-- After a fold the branch has no children, and the others have theirs. -/
theorem childrenOf_fold (h : a.Downward) (target : Option String) (i : Nat)
    (v : Value) (j : Nat) :
    (a.fold target i v).childrenOf j = if j = i then []
    else a.childrenOf j := by
  unfold childrenOf
  rw [getElem?_fold h]
  split
  · rw [Option.map_map]
    cases a.branches[j]? with
    | none => rfl
    | some b => cases target <;> rfl
  · split
    · rw [Option.map_map]
      rfl
    · rfl

namespace Foldable

/-- A fold into the first branch leaves everything alone that lies in front of
the children. -/
theorem getElem?_fold_of_ne (h : a.Foldable n k (i :: parents))
    (target : Option String) (v : Value) {j : Nat} (hj : j < k) (hne : j ≠ i) :
    (a.fold target i v).branches[j]? = a.branches[j]? := by
  rw [getElem?_fold h.downward, if_neg hne,
    if_neg fun hc => absurd (h.le_child i List.mem_cons_self j hc)
    (Nat.not_le_of_lt hj)]

/-- So it leaves the other branches alone. -/
theorem getElem?_fold_of_mem (h : a.Foldable n k (i :: parents))
    (target : Option String) (v : Value) {i' : Nat} (hi' : i' ∈ parents) :
    (a.fold target i v).branches[i']? = a.branches[i']? := by
  refine h.getElem?_fold_of_ne target v
    (h.range i' (List.mem_cons_of_mem i hi')).2 fun heq => ?_
  exact (List.nodup_cons.1 h.nodup).1 (heq ▸ hi')

/-- The others do not get in each other's way afterwards either. -/
theorem tail (h : a.Foldable n k (i :: parents)) (target : Option String)
    (v : Value) :
    (a.fold target i v).Foldable n k parents := by
  obtain ⟨hi, hnodup⟩ := List.nodup_cons.1 h.nodup
  have hne : ∀ i' ∈ parents, i' ≠ i := fun i' hi' heq => hi (heq ▸ hi')
  have hmem : ∀ i' ∈ parents, i' ∈ i :: parents :=
    fun i' => List.mem_cons_of_mem i
  have hchildren := childrenOf_fold h.downward target i v
  refine ⟨?_, fun i' hi' => h.range i' (hmem i' hi'), ?_, ?_, hnodup, ?_⟩
  · exact (h.downward.drain i).receive target i v
  · intro i' hi'
    rw [h.getElem?_fold_of_mem target v hi']
    exact h.parent_lt i' (hmem i' hi')
  · intro i' hi'
    rw [hchildren, if_neg (hne i' hi')]
    exact h.le_child i' (hmem i' hi')
  · refine (List.pairwise_cons.1 h.disjoint).2.imp_of_mem
      fun {i₁ i₂} h₁ h₂ hd => ?_
    rw [hchildren, hchildren, if_neg (hne i₁ h₁), if_neg (hne i₂ h₂)]
    exact hd

/-- **A fold into the first branch is of no matter to what the others come
to.** -/
theorem comesTo_fold (h : a.Foldable n k (i :: parents))
    (target : Option String) (v : Value) {i' : Nat} (hi' : i' ∈ parents)
    (form : ScopeForm) :
    (a.fold target i v).comesTo calls form i' = a.comesTo calls form i' := by
  have hmem := List.mem_cons_of_mem i hi'
  have hfirst := (List.pairwise_cons.1 h.disjoint).1 i' hi'
  have hrange := h.range i List.mem_cons_self
  -- It has its own children, which the fold has not emptied, and sees nothing
  -- that is changed.
  refine comesTo_congr (yieldsOf_congr (h.getElem?_fold_of_mem target v hi')
    fun j hj => ?_) ?_ form
  · have hle := h.le_child i' hmem j hj
    rw [getElem?_fold h.downward, if_neg (by omega), if_neg (hfirst j hj)]
  · have hsame := h.getElem?_fold_of_mem target v hi'
    refine scopeOf_congr
      (above_congr (n := n) (fun j hj => ?_) ?_ (h.parent_lt i' hmem)) ?_
    · rw [h.getElem?_fold_of_ne target v (by omega) (by omega)]
    · rw [hsame]
    · rw [hsame]

end Foldable

/-! ## Folding into all of them

What all folds together do to the arena does not depend on their order. It is
defined by a recursion nevertheless, since this is how a scope is closed, and
read off afterwards branch by branch. -/

/-- **The arena after a scope has been folded into some branches**, each of
which receives a value. -/
def gather (a : Arena) (target : Option String) (values : Nat → Value) :
    List Nat → Arena
  | [] => a
  | i :: parents => (a.fold target i (values i)).gather target values parents

theorem gather_cons (a : Arena) (target : Option String) (values : Nat → Value)
    (i : Nat) (parents : List Nat) : a.gather target values (i :: parents)
      = (a.fold target i (values i)).gather target values parents := rfl

theorem gather_congr {u v : Nat → Value} (h : ∀ i ∈ parents, u i = v i) :
    a.gather target u parents = a.gather target v parents := by
  induction parents generalizing a with
  | nil => rfl
  | cons i parents ih =>
    obtain ⟨hi, hrest⟩ := List.forall_mem_cons.1 h
    rw [gather_cons, gather_cons, hi, ih hrest]

/-- **A branch after that**: it has its value, and no children any more. -/
theorem getElem?_gather (h : a.Foldable n k parents) (values : Nat → Value)
    {j : Nat} (hj : j < k) :
    (a.gather target values parents).branches[j]? =
      if j ∈ parents then a.branches[j]?.map fun b =>
      (Branch.childless b).receive target (values j)
      else a.branches[j]? := by
  induction parents generalizing a with
  | nil => rfl
  | cons i parents ih =>
    have hi : i ∉ parents := (List.nodup_cons.1 h.nodup).1
    rw [gather_cons, ih (h.tail target (values i)), getElem?_fold h.downward]
    by_cases hji : j = i
    · rw [hji, if_neg hi, if_pos rfl, if_pos List.mem_cons_self]
    · rw [if_neg hji,
        if_neg fun hc => absurd (h.le_child i List.mem_cons_self j hc)
        (Nat.not_le_of_lt hj)]
      by_cases hjp : j ∈ parents
      · rw [if_pos hjp, if_pos (List.mem_cons_of_mem i hjp)]
      · rw [if_neg hjp, if_neg (by simp [hji, hjp])]

end Arena

/-! ## Closing

On the machine the values are found on the way, each in the arena that the
folds before it have left. By what has been said they could all have been found
before. So closing succeeds if every parent comes to something, and then every
parent receives what it has come to. -/

namespace Drive

variable {m m' : Machine} {s : OpenScope} {n k : Nat}

/-- Folding into a branch comes to something if its elements do. -/
theorem foldParent_result (hc : calls.Steady) (h : m.arena.Downward) (i : Nat) :
    (foldParent calls s i).result w m = .ok ((), m') ↔
      ∃ v, (m.arena.comesTo calls s.form i).value w = .ok v ∧
        m' = { m with arena := m.arena.fold s.target i v } := by
  have hsteady := Arena.steady_folded hc m.arena s.form i
  unfold Arena.comesTo
  simp only [Act.value_bind_eq_ok_iff hsteady, Act.value_lift, result_eq_ok_iff]
  constructor
  · rintro ⟨line, w', hexec⟩
    obtain ⟨yields, v, hy, hv, hp⟩ := exec_foldParent_eq_ok hexec
    change m.arena.yieldsOf i = .ok yields at hy
    rw [Arena.folded_congr (Arena.scopeOf_drain h i)] at hv
    exact ⟨v, ⟨yields, hy, congrArg Prod.fst hv⟩, congrArg Progress.machine hp⟩
  · rintro ⟨v, ⟨yields, hy, hv⟩, rfl⟩
    refine ⟨0, ((m.arena.folded calls s.form i yields).exec w).2, ?_⟩
    rw [exec_foldParent]
    dsimp only [Progress.arena]
    rw [hy]
    dsimp only
    rw [Arena.folded_congr (Arena.scopeOf_drain h i)]
    rcases hf : (m.arena.folded calls s.form i yields).exec w with ⟨r, w₁⟩
    obtain rfl : r = .ok v := by
      rw [Act.value, hf] at hv
      exact hv
    rfl

/-- **Folding into branches that do not get in each other's way** is folding
into each. -/
theorem foldParents_result (hc : calls.Steady) {parents : List Nat}
    (h : m.arena.Foldable n k parents) :
    (foldParents calls s parents).result w m = .ok ((), m') ↔
      ∃ values,
        (∀ i ∈ parents, (m.arena.comesTo calls s.form i).value w
          = .ok (values i)) ∧
        m' = { m with arena := m.arena.gather s.target values parents } := by
  induction parents generalizing m with
  | nil =>
    exact ⟨fun h =>
        ⟨fun _ => .empty, nofun, (Prod.mk.inj (Except.ok.inj h)).2.symm⟩,
      fun ⟨_, _, h⟩ => h ▸ rfl⟩
  | cons i parents ih =>
    have hne : ∀ i' ∈ parents, i' ≠ i := fun i' hi' heq =>
      (List.nodup_cons.1 h.nodup).1 (heq ▸ hi')
    unfold foldParents
    have hsteady :=
      foldParents_closed Act.steady_closed steady_closed hc s parents
    rw [result_bind_eq_ok_iff fun _ => hsteady]
    constructor
    · rintro ⟨_, m₁, hfirst, hrest⟩
      obtain ⟨v, hv, rfl⟩ := (foldParent_result hc h.downward i).1 hfirst
      obtain ⟨values, hvalues, rfl⟩ := (ih (h.tail s.target v)).1 hrest
      -- The values of the others were found after the first fold, but are the
      -- same before it.
      let values' : Nat → Value := fun j => if j = i then v else values j
      have hfirst : values' i = v := if_pos rfl
      have hothers : ∀ i' ∈ parents, values' i' = values i' :=
        fun i' hi' => if_neg (hne i' hi')
      refine ⟨values', List.forall_mem_cons.2 ⟨?_, fun i' hi' => ?_⟩, ?_⟩
      · rw [hfirst]
        exact hv
      · rw [hothers i' hi', ← hvalues i' hi', h.comesTo_fold s.target v hi']
      · rw [Arena.gather_cons, hfirst, Arena.gather_congr hothers]
    · rintro ⟨values, hvalues, rfl⟩
      obtain ⟨hv, hvalues⟩ := List.forall_mem_cons.1 hvalues
      refine ⟨(), _, (foldParent_result hc h.downward i).2 ⟨values i, hv, rfl⟩,
        ?_⟩
      refine (ih (h.tail s.target (values i))).2 ⟨values, fun i' hi' => ?_, rfl⟩
      rw [h.comesTo_fold s.target (values i) hi']
      exact hvalues i' hi'

/-- Closing the innermost scope is collecting it, once it is off the stack. -/
theorem closeScope_result_cons (hc : calls.Steady) {outer : List OpenScope}
    (hs : m.scopes = s :: outer) :
    (closeScope host calls).result w m
      = (collect calls s).result w { m with scopes := outer } := by
  have hcollect := collect_closed Act.steady_closed steady_closed hc s
  have hsteady := hcollect { machine := { m with scopes := outer } }
    { machine := { m with scopes := outer } } (w.pause host) w rfl
  unfold result
  rw [← hsteady]
  unfold outcome
  rw [exec_closeScope_cons
    (show Progress.scopes { machine := m } = s :: outer from hs)]
  rcases (collect calls s).exec { machine := { m with scopes := outer } }
      (w.pause host) with
    ⟨_ | _, q, v⟩ <;> rfl

/-- **Closing a scope** is folding it into the branches it was opened on, each
as if it were the only one, and dropping its own branches. -/
theorem closeScope_result (hc : calls.Steady) {outer : List OpenScope}
    (hs : m.scopes = s :: outer) (h : m.arena.Foldable n k s.parents) :
    (closeScope host calls).result w m = .ok ((), m') ↔
      ∃ values,
        (∀ i ∈ s.parents, (m.arena.comesTo calls s.form i).value w
          = .ok (values i)) ∧
        m' = {
          arena := (m.arena.gather s.target values s.parents).ascend s
          scopes := outer } := by
  have hascend : (do
      let m ← machine
      become { m with arena := m.arena.ascend s } : Drive σ Unit).Steady :=
    steady_closed.bind steady_closed.machine fun _ => steady_closed.become _
  let inner : Machine := { m with scopes := outer }
  rw [closeScope_result_cons hc hs]
  unfold collect
  rw [result_bind_eq_ok_iff fun _ => hascend]
  constructor
  · rintro ⟨_, m₁, hfold, hrest⟩
    obtain ⟨values, hvalues, rfl⟩ :=
      (foldParents_result hc (m := inner) h).1 hfold
    cases hrest
    exact ⟨values, hvalues, rfl⟩
  · rintro ⟨values, hvalues, rfl⟩
    have hfold :=
      (foldParents_result hc (m := inner) h).2 ⟨values, hvalues, rfl⟩
    exact ⟨(), _, hfold, rfl⟩

end Drive

end StreamScript
