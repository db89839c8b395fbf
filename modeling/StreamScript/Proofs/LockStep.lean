import Mathlib.Tactic.Choose
import StreamScript.Proofs.Blocks

/-!
# Lines on all branches, and on one after the other

A run takes a line on all branches before it takes the next. Read element by
element (`PerElement.run`), a scope runs its whole block on one element before
it goes on to the next. Both come to the same: taking the lines of a block, in
a machine whose leaves are ready, is running the block on each leaf
(`Drive.block_result_iff_each`). One side fails if the other does, though
perhaps with another error, since they come across the errors in another order.

The proof is by the length of the block. A line that opens no scope is executed
on each leaf. One that opens a scope is a block of its own, one deeper, taken on
the children of all leaves together; closing it puts on every leaf what its own
children have come to (`Drive.scope_result`).
-/

namespace StreamScript

variable {σ : Type} {host : Host σ} {calls : Callables σ} {w : World σ}

/-! ## Scopes

A scope is where the two ways of reading a script differ. Read element by
element, a leaf has a scope of its own: its elements are found, the block is
run on each, and what they come to is folded. On the machine there is one scope
for all leaves, whose children are numbered one after the other. What connects
the two is that a child has where it stands and what it holds from its own
parent alone.

All statements are about success and the value. Which error a failure shows is
not compared; the two ways come across errors in different orders. -/

namespace Arena.Sown

variable {a b : Arena} {n i : Nat} {outcomes : Nat → Outcome}
  {fields : Nat → List Nat} {block : Spot → Cell → Act σ Cell}

/-- The elements of a leaf are gone through by going through its children.
Child and element correspond by their place: the child at a place has the
element of that place in its stream, and this place as its index. -/
theorem mapM_yieldOf (h : Sown a b a.leaves outcomes fields)
    (hready : a.Ready n) (hi : i ∈ a.leaves)
    (block : Spot → Cell → Act σ Cell) :
    (((outcomes i).elements.getD []).zipIdx.mapM fun (v, t) =>
        PerElement.yieldOf block ((a.spot i).below (a.after outcomes i) t) v) =
      (fields i).mapM fun j => do
        let c ← block (b.spot j) (b.cell j)
        return { result := c.stream, origin := (b.cell j).stream } := by
  let yield : Spot × Cell → Act σ Yield := fun x => do
    let c ← block x.1 x.2
    return { result := c.stream, origin := x.2.stream }
  have hchildren : ((fields i).map fun j => (b.spot j, b.cell j)).mapM yield
      = (fields i).mapM fun j => yield (b.spot j, b.cell j) := List.mapM_map
  -- The children stand where the elements are put, and hold them.
  refine Eq.trans ?_ hchildren
  rw [h.map_spot_cell hready hi, List.mapM_map]
  rfl

/-- **A scope on one leaf** has a value if the block has one on each of its
children, and if these can be folded. The right side speaks of the machine,
with its branches, and the left side of the meaning of a scope; the block is
any whose result does not depend on the world. -/
theorem scope_value_iff (hc : calls.Steady)
    (hblock : ∀ spot c, (block spot c).Steady)
    (h : Sown a b a.leaves outcomes fields) (hready : a.Ready n)
    (hi : i ∈ a.leaves) (form : ScopeForm) (target : Option String) {c : Cell} :
    (PerElement.scope calls form target ((outcomes i).elements.getD []) block
        (a.spot i)
        (a.after outcomes i)).value w = .ok c ↔
      ∃ g : Nat → Cell,
        (∀ j ∈ fields i, (block (b.spot j) (b.cell j)).value w = .ok (g j)) ∧
        ∃ v,
          (form.value calls ((a.spot i).scope (a.after outcomes i))
            ((fields i).map fun j =>
            { result := (g j).stream, origin := (b.cell j).stream })).value w
            = .ok v ∧
          c = (a.after outcomes i).receive target v := by
  have hvalue : ∀ yields,
      (form.value calls ((a.spot i).scope (a.after outcomes i))
        yields).Steady := fun yields =>
    form.value_related Act.steady_closed hc _ yields
  have hyield : ∀ j, (do
      let c ← block (b.spot j) (b.cell j)
      return { result := c.stream, origin := (b.cell j).stream } :
        Act σ Yield).Steady := fun j =>
    Act.steady_closed.ordinarily.seq (hblock _ _) fun c =>
      Act.steady_closed.pure _
  have hreceive :
      ∀ v, (pure ((a.after outcomes i).receive target v) : Act σ Cell).Steady :=
    fun v => Act.steady_closed.pure _
  have hrest : ∀ yields, (do
      let v ← form.value calls ((a.spot i).scope (a.after outcomes i)) yields
      return (a.after outcomes i).receive target v : Act σ Cell).Steady :=
    fun yields =>
      Act.steady_closed.ordinarily.seq (hvalue yields) hreceive
  unfold PerElement.scope
  rw [h.mapM_yieldOf hready hi, Act.value_bind_eq_ok_iff hrest]
  constructor
  · rintro ⟨yields, hyields, hfold⟩
    obtain ⟨yieldOf, hof, rfl⟩ := (Act.value_mapM_eq_ok_iff hyield).1 hyields
    obtain ⟨v, hv, hv'⟩ := (Act.value_bind_eq_ok_iff hreceive).1 hfold
    have hsplit := fun j hj =>
      (Act.value_bind_eq_ok_iff fun _ => Act.steady_closed.pure _).1 (hof j hj)
    choose! g hg hyields using hsplit
    refine ⟨g, hg, v, ?_, (Except.ok.inj hv').symm⟩
    rw [List.map_congr_left fun j hj => Except.ok.inj (hyields j hj)]
    exact hv
  · rintro ⟨g, hg, v, hv, rfl⟩
    refine ⟨_, (Act.value_mapM_eq_ok_iff hyield).2 ⟨_, fun j hj => ?_, rfl⟩,
      (Act.value_bind_eq_ok_iff hreceive).2 ⟨v, hv, rfl⟩⟩
    exact (Act.value_bind_eq_ok_iff fun _ => Act.steady_closed.pure _).2
      ⟨g j, hg j hj, rfl⟩

/-- **The scopes on all leaves** have values if the block has one on every
child, whatever leaf it belongs to, and if the children of each leaf can be
folded. -/
theorem forall_scope_value_iff (hc : calls.Steady)
    (hblock : ∀ spot c, (block spot c).Steady)
    (h : Sown a b a.leaves outcomes fields) (hready : a.Ready n)
    (form : ScopeForm) (target : Option String) {c : Nat → Cell} :
    (∀ i ∈ a.leaves,
        (PerElement.scope calls form target ((outcomes i).elements.getD []) block
        (a.spot i) (a.after outcomes i)).value w = .ok (c i)) ↔
      ∃ (g : Nat → Cell) (values : Nat → Value),
        (∀ i ∈ a.leaves,
          (∀ j ∈ fields i, (block (b.spot j) (b.cell j)).value w = .ok (g j)) ∧
          (form.value calls ((a.spot i).scope (a.after outcomes i))
            ((fields i).map fun j =>
            { result := (g j).stream, origin := (b.cell j).stream })).value w
            = .ok (values i)) ∧
        ∀ i ∈ a.leaves,
          c i = (a.after outcomes i).receive target (values i) := by
  have hiff := fun i hi => h.scope_value_iff hc hblock hready (w := w) (i := i)
    (c := c i) hi form target
  constructor
  · intro hvalue
    have hleaf := fun i hi => (hiff i hi).1 (hvalue i hi)
    choose! g' hg' values hvalues hc using hleaf
    -- What the block comes to on a child does not depend on the leaf that one
    -- looks from.
    have hchild : ∀ j, (∃ i ∈ a.leaves, j ∈ fields i) →
        ∃ c, (block (b.spot j) (b.cell j)).value w = .ok c :=
      fun j ⟨i, hi, hj⟩ => ⟨g' i j, hg' i hi j hj⟩
    choose! g hg using hchild
    refine ⟨g, values, fun i hi => ⟨fun j hj => hg j ⟨i, hi, hj⟩, ?_⟩, hc⟩
    have hsame : ∀ j ∈ fields i, g j = g' i j := fun j hj =>
      Except.ok.inj ((hg j ⟨i, hi, hj⟩).symm.trans (hg' i hi j hj))
    rw [List.map_congr_left fun j hj => by rw [hsame j hj]]
    exact hvalues i hi
  · rintro ⟨g, values, hg, hc⟩ i hi
    exact (hiff i hi).2 ⟨g, (hg i hi).1, values i, (hg i hi).2, hc i hi⟩

end Arena.Sown

namespace Drive

variable {m m' : Machine} {n : Nat} {x : Placed Step} {action : Action}
  {form : ScopeForm} {target : Option String} {block : Spot → Cell → Act σ Cell}

/-- A line that opens a scope makes leaves that are ready: they are the
children it has made, all of them new. -/
theorem ready_of_step_result (hc : calls.Steady) (hready : m.arena.Ready n)
    (hx : x.content = .act action)
    (hopened : action.opened? = some (form, target)) {exits : Bool}
    (h : (step host calls x).result w m = .ok (exits, m')) :
    m'.scopes.length = m.scopes.length + 1 ∧
    m'.arena.Ready m.arena.branches.size := by
  obtain ⟨outcomes, -, -, rfl⟩ := (step_result hc hready hx).1 h
  obtain ⟨hdown, fields, hsown⟩ := hready.commit outcomes
  rw [Machine.after_of_opened m x.line hopened]
  exact ⟨rfl, hsown.ready hready hdown⟩

/-- **The block of a scope and closing it**, on a machine that has just opened
it: the block has a value on each child, and what these come to is put on the
leaves. This is where the machine goes back: the children are drained, the
leaves are those that there were before, and no trace of the scope is left. -/
theorem block_closeScope_result (hc : calls.Steady) (hready : m.arena.Ready n)
    (line : Nat) (hopened : action.opened? = some (form, target))
    {outcomes : Nat → Outcome} {fields : Nat → List Nat} {b : Arena}
    (hb : m.arena.commit (m.arena.leaves.map fun i => (i, outcomes i)) = b)
    (hdown : b.Downward)
    (hsown : Arena.Sown m.arena b m.arena.leaves outcomes fields) :
    (∃ m₂, Each block w (m.after line action (m.arena.leaves.map outcomes)) m₂ ∧
        (closeScope host calls).result w m₂ = .ok ((), m')) ↔
      ∃ (g : Nat → Cell) (values : Nat → Value),
        (∀ i ∈ m.arena.leaves,
          (∀ j ∈ fields i, (block (b.spot j) (b.cell j)).value w = .ok (g j)) ∧
          (form.value calls ((m.arena.spot i).scope (m.arena.after outcomes i))
            ((fields i).map fun j =>
              { result := (g j).stream, origin := (b.cell j).stream })).value w
            = .ok (values i)) ∧
        m' = m.hold fun i => (m.arena.after outcomes i).receive target
        (values i) := by
  let s : OpenScope :=
    { line, form, target, parents := m.arena.leaves,
      mark := m.arena.branches.size }
  have hback :=
    fun g => hsown.ascend_gather (g := g) hready hdown (s := s) rfl rfl
  rw [Machine.after_of_opened m line hopened, hb]
  constructor
  · rintro ⟨_, ⟨g, hg, rfl⟩, hclose⟩
    obtain ⟨values, hvalues, rfl⟩ :=
      (closeScope_result hc rfl (hsown.foldable hready hdown)).1 hclose
    refine ⟨g, values, fun i hi => ⟨fun j hj => ?_, ?_⟩, ?_⟩
    · rw [← Arena.spot_descend]
      exact hg j (hsown.mem_leaves_iff.2 ⟨i, hi, hj⟩)
    · rw [← hsown.comesTo hready hi form]
      exact hvalues i hi
    · exact congrArg (fun a => { m with arena := a }) (hback g values)
  · rintro ⟨g, values, hg, rfl⟩
    refine ⟨_, ⟨g, fun j hj => ?_, rfl⟩, ?_⟩
    · obtain ⟨i, hi, hji⟩ := hsown.mem_leaves_iff.1 hj
      have hblock := (hg i hi).1 j hji
      rw [← Arena.spot_descend b m.arena.branches.size] at hblock
      exact hblock
    · refine (closeScope_result hc rfl (hsown.foldable hready hdown)).2
        ⟨values, fun i hi => ?_,
          congrArg (fun a => { m with arena := a }) (hback g values).symm⟩
      exact (congrArg (Act.value · w) (hsown.comesTo hready hi form)).trans
        (hg i hi).2

/-- **Opening a scope, its block on all children, and closing it** is the scope
on each leaf. The condition on the block is met by the meaning of any lines, so
the theorem can be used from the inside out. -/
theorem scope_result (hc : calls.Steady)
    (hblock : ∀ spot c, (block spot c).Steady) (hready : m.arena.Ready n)
    (hx : x.content = .act action)
    (hopened : action.opened? = some (form, target)) :
    (∃ exits m₁ m₂, (step host calls x).result w m = .ok (exits, m₁) ∧
        Each block w m₁ m₂ ∧
        (closeScope host calls).result w m₂ = .ok ((), m')) ↔
      Each (fun spot c => do
        let outcome ← action.execute calls (spot.scope c)
        PerElement.scope calls form target (outcome.elements.getD []) block spot
          (c.settle outcome)) w m m' := by
  have hscope : ∀ spot (c : Cell) (outcome : Outcome),
      (PerElement.scope calls form target (outcome.elements.getD []) block spot
        (c.settle outcome)).Steady := fun spot c outcome =>
    PerElement.steady_scope hc hblock form target _ spot _
  constructor
  · rintro ⟨exits, m₁, m₂, hstep, hrest⟩
    obtain ⟨outcomes, hexecuted, -, rfl⟩ := (step_result hc hready hx).1 hstep
    obtain ⟨hdown, fields, hsown⟩ := hready.commit outcomes
    obtain ⟨g, values, hg, rfl⟩ :=
      (block_closeScope_result hc hready x.line hopened rfl hdown hsown).1
        ⟨m₂, hrest⟩
    have hleaves :=
      (hsown.forall_scope_value_iff hc hblock hready form target).2
      ⟨g, values, hg, fun i hi => rfl⟩
    exact ⟨_, fun i hi => (Act.value_bind_eq_ok_iff (hscope _ _)).2
      ⟨outcomes i, hexecuted i hi, hleaves i hi⟩, rfl⟩
  · rintro ⟨c, hleaf, rfl⟩
    -- What the line does on each leaf comes first, and says which children
    -- there are.
    have hsplit :=
      fun i hi => (Act.value_bind_eq_ok_iff (hscope _ _)).1 (hleaf i hi)
    choose! outcomes hexecuted hvalue using hsplit
    obtain ⟨hdown, fields, hsown⟩ := hready.commit outcomes
    obtain ⟨g, values, hg, hreceived⟩ :=
      (hsown.forall_scope_value_iff hc hblock hready form target).1 hvalue
    obtain ⟨m₂, hrest⟩ :=
      (block_closeScope_result hc hready x.line hopened rfl hdown hsown).2
        ⟨g, values, hg, rfl⟩
    refine ⟨_, _, m₂,
      (step_result hc hready hx).2 ⟨outcomes, hexecuted, rfl, rfl⟩, ?_⟩
    rw [Machine.hold_congr hreceived]
    exact hrest

end Drive

/-! ## Blocks

What the induction is about is a list of lines that can be taken on a machine
with so many scopes open: none of them is less deep, so no scope is closed that
was open before. Errors and exits are excluded, because they end the lines of a
run and not only those of a leaf. -/

/-- **Lines that make up a block** of some depth: no line among them is less
deep, and they hold neither an error nor an exit. -/
structure IsBlock (depth : Nat) (l : List (Placed Step)) : Prop where
  nested : Nested depth l
  le_depth : ∀ x ∈ l, x.content.isBlank = false → depth ≤ x.depth
  error?_eq_none : ∀ x ∈ l, x.content.error? = none
  stays : ∀ x ∈ l, x.content ≠ .act .exit

namespace IsBlock

variable {depth : Nat} {x : Placed Step} {l : List (Placed Step)}

/-- The first line that is not empty stands in the block itself. It is at most
as deep as there are scopes open, and none of the block is less deep. -/
theorem depth_eq (h : IsBlock depth (x :: l)) (hx : x.content.isBlank = false) :
    x.depth = depth := by
  have hnested := h.nested
  unfold Nested at hnested
  rw [if_neg (by simp [hx])] at hnested
  exact Nat.le_antisymm hnested.1 (h.le_depth x List.mem_cons_self hx)

/-- What is behind a line is nested, with room for its scope if it opens one. -/
theorem nested_tail (h : IsBlock depth (x :: l)) :
    Nested (depth + if x.content.opened?.isSome then 1 else 0) l := by
  have hnested := h.nested
  unfold Nested at hnested
  split at hnested
  · exact hnested.mono (Nat.le_add_right _ _)
  · next hx =>
    rw [← h.depth_eq (by simpa using hx)]
    exact hnested.2

/-- Some of the lines, if they are nested and deep enough. -/
theorem of_subset {depth' : Nat} {l' : List (Placed Step)} (h : IsBlock depth l)
    (hl : l' ⊆ l) (hnested : Nested depth' l')
    (hle : ∀ x ∈ l', x.content.isBlank = false → depth' ≤ x.depth) :
    IsBlock depth' l' where
  nested := hnested
  le_depth := hle
  error?_eq_none x hx := h.error?_eq_none x (hl hx)
  stays x hx := h.stays x (hl hx)

/-- Behind a line that opens no scope the block goes on. -/
theorem tail (h : IsBlock depth (x :: l)) (hopened : x.content.opened? = none) :
    IsBlock depth l := by
  have hnested := h.nested_tail
  rw [hopened] at hnested
  exact h.of_subset (List.subset_cons_self x l) hnested fun y hy =>
    h.le_depth y (List.mem_cons_of_mem x hy)

/-- **The block of a scope**: the lines behind the one that opens it, as long
as they stand deeper. -/
theorem inner (h : IsBlock depth (x :: l))
    (hopened : x.content.opened?.isSome) :
    IsBlock (depth + 1) (l.takeWhile (standsIn depth)) := by
  have hnested := h.nested_tail
  rw [if_pos hopened, ← List.takeWhile_append_dropWhile (p := standsIn depth)
    (l := l)] at hnested
  have hsub : l.takeWhile (standsIn depth) ⊆ x :: l := fun y hy =>
    List.mem_cons_of_mem x ((List.takeWhile_sublist _).subset hy)
  refine h.of_subset hsub hnested.of_append fun y hy hyb => ?_
  have hy' := List.all_eq_true.1 List.all_takeWhile y hy
  unfold standsIn at hy'
  rw [hyb, Bool.false_or, decide_eq_true_iff] at hy'
  exact hy'

/-- What comes behind that begins with a line that is not deeper. -/
theorem head_outer (depth : Nat) (l : List (Placed Step)) :
    ∀ y ∈ (l.dropWhile (standsIn depth)).head?, y.content.isBlank = false ∧
      y.depth ≤ depth := by
  intro y hy
  have hy' := List.head?_dropWhile_not (standsIn depth) l
  rw [Option.mem_def.1 hy] at hy'
  simpa [standsIn] using hy'

/-- **What comes behind the block of a scope** belongs to the block around
it. -/
theorem outer (h : IsBlock depth (x :: l)) :
    IsBlock depth (l.dropWhile (standsIn depth)) := by
  have hnested := h.nested_tail
  rw [← List.takeWhile_append_dropWhile (p := standsIn depth) (l := l)] at hnested
  have hsub : l.dropWhile (standsIn depth) ⊆ x :: l := fun y hy =>
    List.mem_cons_of_mem x ((List.dropWhile_sublist _).subset hy)
  refine h.of_subset hsub ?_ fun y hy => h.le_depth y (hsub hy)
  have hhead := head_outer depth l
  cases hrest : l.dropWhile (standsIn depth) with
  | nil => trivial
  | cons y rest =>
    rw [hrest] at hnested hhead
    obtain ⟨hyb, hyd⟩ := hhead y rfl
    exact hnested.behind hyb hyd

end IsBlock

namespace Drive

variable {m m' : Machine} {n depth : Nat} {l rest : List (Placed Step)}
  {x : Placed Step} {action : Action}

/-- **Lines behind one that opens a scope** are the block of the scope, and
what comes behind it. The cut is the same as the one in the reading element by
element, which takes lines as long as they are deeper. -/
theorem block_result_split (hc : calls.Steady) (depth : Nat)
    (l : List (Placed Step)) :
    (block host calls depth l).result w m = .ok ((), m') ↔
      ∃ m₁ m₂,
          (block host calls (depth + 1) (l.takeWhile (standsIn depth))).result w
          m
          = .ok ((), m₁) ∧
        (closeTo host calls depth).result w m₁ = .ok ((), m₂) ∧
        (block host calls depth (l.dropWhile (standsIn depth))).result w m₂
        = .ok ((), m') := by
  rw [← block_append hc _ (IsBlock.head_outer depth l),
    List.takeWhile_append_dropWhile]

/-- A block whose first line opens no scope, if the rest of it can be taken
so. -/
theorem block_result_of_not_opened (hc : calls.Steady)
    (hx : x.content = .act action) (hexit : action ≠ .exit)
    (hopened : action.opened? = none) (hm : m.scopes.length = x.depth)
    (hready : m.arena.Ready n)
    (hrest : ∀ {m₁}, m₁.scopes.length = x.depth → m₁.arena.Ready n →
      ((block host calls x.depth rest).result w m₁ = .ok ((), m') ↔
        Each (PerElement.run calls rest) w m₁ m')) :
    (block host calls x.depth (x :: rest)).result w m = .ok ((), m') ↔
      Each (PerElement.run calls (x :: rest)) w m m' := by
  have hblank : x.content.isBlank = false := by
    rw [hx]
    rfl
  rw [block_result_cons hc hblank (Nat.le_of_eq hm),
    PerElement.run_of_not_opened hx hexit hopened,
    each_bind hready fun spot c => PerElement.steady_run hc rest spot c]
  simp only [step_result_eq_each hc hready hx hopened hexit]
  constructor
  · rintro ⟨_, m₁, ⟨-, hfirst⟩, hblock⟩
    exact ⟨m₁, hfirst,
      (hrest (hfirst.scopes_eq ▸ hm) (hfirst.ready hready)).1 hblock⟩
  · rintro ⟨m₁, hfirst, heach⟩
    exact ⟨false, m₁, ⟨rfl, hfirst⟩,
      (hrest (hfirst.scopes_eq ▸ hm) (hfirst.ready hready)).2 heach⟩

/-- A block whose first line opens a scope, if the block of that scope and what
comes behind it can be taken so. -/
theorem block_result_of_opened (hc : calls.Steady)
    (hx : x.content = .act action) {form : ScopeForm} {target : Option String}
    (hopened : action.opened? = some (form, target))
    (hm : m.scopes.length = x.depth) (hready : m.arena.Ready n)
    (hinner : ∀ {n m₁ m₂}, m₁.scopes.length = x.depth + 1 → m₁.arena.Ready n →
      ((block host calls (x.depth + 1)
        (rest.takeWhile (standsIn x.depth))).result w m₁ = .ok ((), m₂) ↔
        Each (PerElement.run calls (rest.takeWhile (standsIn x.depth)))
        w m₁ m₂))
    (houter : ∀ {m₁}, m₁.scopes.length = x.depth → m₁.arena.Ready n →
      ((block host calls x.depth (rest.dropWhile (standsIn x.depth))).result w
        m₁ = .ok ((), m') ↔
        Each (PerElement.run calls (rest.dropWhile (standsIn x.depth))) w
        m₁ m')) :
    (block host calls x.depth (x :: rest)).result w m = .ok ((), m') ↔
      Each (PerElement.run calls (x :: rest)) w m m' := by
  have hblank : x.content.isBlank = false := by
    rw [hx]
    rfl
  have hsteady := fun l => PerElement.steady_run (σ := σ) hc l
  rw [block_result_cons hc hblank (Nat.le_of_eq hm),
    PerElement.run_of_opened hx hopened, each_bind hready (hsteady _)]
  constructor
  · rintro ⟨exits, m₁, hstep, hblock⟩
    obtain ⟨m₂, m₃, hblock, hclose, hbehind⟩ :=
      (block_result_split hc x.depth rest).1 hblock
    -- The lines behind are the block of the scope, one deeper, and then those
    -- behind it.
    obtain ⟨hscopes, hready₁⟩ := ready_of_step_result hc hready hx hopened hstep
    rw [hm] at hscopes
    have heach := (hinner hscopes hready₁).1 hblock
    rw [closeTo_result_of_eq_succ (heach.scopes_eq ▸ hscopes)] at hclose
    have hfirst := (scope_result hc (hsteady _) hready hx hopened).1
      ⟨exits, m₁, m₂, hstep, heach, hclose⟩
    exact ⟨m₃, hfirst,
      (houter (hfirst.scopes_eq ▸ hm) (hfirst.ready hready)).1 hbehind⟩
  · rintro ⟨m₃, hfirst, hbehind⟩
    obtain ⟨exits, m₁, m₂, hstep, heach, hclose⟩ :=
      (scope_result hc (hsteady _) hready hx hopened).2 hfirst
    obtain ⟨hscopes, hready₁⟩ := ready_of_step_result hc hready hx hopened hstep
    rw [hm] at hscopes
    rw [← closeTo_result_of_eq_succ (heach.scopes_eq ▸ hscopes)] at hclose
    refine ⟨exits, m₁, hstep,
      (block_result_split hc x.depth rest).2 ⟨m₂, m₃, ?_, hclose, ?_⟩⟩
    · exact (hinner hscopes hready₁).2 heach
    · exact (houter (hfirst.scopes_eq ▸ hm) (hfirst.ready hready)).2 hbehind

/-- **Taking the lines of a block on all leaves is running it on each of
them.** By the length of the block: behind a line that opens no scope the rest
is shorter, and behind one that opens a scope so are the lines of its block and
what comes behind that. -/
theorem block_result_iff_each (hc : calls.Steady) (hl : IsBlock depth l)
    (hm : m.scopes.length = depth) (hready : m.arena.Ready n) :
    (block host calls depth l).result w m = .ok ((), m') ↔
      Each (PerElement.run calls l) w m m' := by
  -- By the length, since the block of a scope and what comes behind it are
  -- both shorter.
  induction hlen : l.length
    using Nat.strongRecOn generalizing l depth m m' n with
  | _ k ih =>
    cases l with
    | nil =>
      have hrun :
          PerElement.run calls [] = fun _ c => (pure c : Act σ Cell) := by
        funext spot c
        rw [PerElement.run]
      rw [hrun, each_pure, block_result_nil,
        closeTo_result_of_le (Nat.le_of_eq hm)]
      exact ⟨fun h => (Prod.mk.inj (Except.ok.inj h)).2.symm, fun h => h ▸ rfl⟩
    | cons x rest =>
      have hlt : rest.length < k := hlen ▸ Nat.lt_succ_self _
      cases hx : x.content with
      | blank =>
        have hblank : x.content.isBlank = true := by
          rw [hx]
          rfl
        rw [block_blank hblank, PerElement.run_blank hblank]
        exact ih _ hlt (hl.tail (by rw [hx]; rfl)) hm hready rfl
      | invalid e =>
        have herror := hl.error?_eq_none x List.mem_cons_self
        rw [hx] at herror
        cases herror
      | act action =>
        have hexit : action ≠ .exit := fun heq =>
          hl.stays x List.mem_cons_self (hx.trans (congrArg Step.act heq))
        obtain rfl : x.depth = depth := hl.depth_eq (by rw [hx]; rfl)
        cases hopened : action.opened? with
        | none =>
          have hrest := hl.tail (by rw [hx]; exact hopened)
          exact block_result_of_not_opened hc hx hexit hopened hm hready
            fun hm hready =>
            ih _ hlt hrest hm hready rfl
        | some opened =>
          have hinner := hl.inner (by
            rw [hx]
            show action.opened?.isSome
            rw [hopened]
            rfl)
          have hinnerlt := Nat.lt_of_le_of_lt
            (List.takeWhile_sublist (standsIn x.depth) (l := rest)).length_le
            hlt
          have houterlt := Nat.lt_of_le_of_lt
            (List.dropWhile_sublist (standsIn x.depth) (l := rest)).length_le
            hlt
          exact block_result_of_opened hc hx hopened hm hready
            (fun hm hready => ih _ hinnerlt hinner hm hready rfl)
            (fun hm hready => ih _ houterlt hl.outer hm hready rfl)

end Drive

end StreamScript
