import StreamScript.Proofs.Gathering

/-!
# Opening a scope on many branches

A line that opens a scope gives every leaf some children, and the children of
all of them together are the next leaves. This module looks at the arena
between the two: the children have where they stand and what they hold from
their own parent alone (`Arena.Sown.map_spot_cell`), they are ready for the
lines of the block (`Arena.Sown.ready`), and whatever these leave in them, the
scope can be closed again (`Arena.Sown.foldable`). What a parent comes to then
(`Arena.Sown.comesTo`) is what its own children hold, folded; and what is left
of the arena is as it was, but for what the parents have received
(`Arena.Sown.ascend_gather`).
-/

namespace StreamScript

variable {σ : Type} {host : Host σ} {calls : Callables σ} {w : World σ}

namespace Arena

/-! ## Down to the children

A line has been executed on leaves that are ready, and its outcomes are put
into place. Each leaf has the elements it was given for children, numbered
behind all branches there were. A child stands below its parent, at its own
position, and holds its element and no locals. -/

/-- What a leaf holds after a line. -/
def after (a : Arena) (outcomes : Nat → Outcome) (i : Nat) : Cell :=
  (a.cell i).settle (outcomes i)

/-- Which branches are the leaves is of no matter to where one stands. -/
theorem spot_descend (a : Arena) (mark i : Nat) :
    (a.descend mark).spot i = a.spot i := by
  have habove : (a.descend mark).above i = a.above i := by
    refine above_eq_of_forall (fun _ => ?_) i
    rfl
  unfold spot
  rw [habove]
  rfl

namespace Sown

variable {a b : Arena} {n i j : Nat} {outcomes : Nat → Outcome}
    {fields : Nat → List Nat}

/-- The children are numbered behind what there was. -/
theorem le_of_mem (h : Sown a b a.leaves outcomes fields) (hi : i ∈ a.leaves)
    (hj : j ∈ fields i) : a.branches.size ≤ j := by
  have hmem : j ∈ a.leaves.flatMap fields := List.mem_flatMap.2 ⟨i, hi, hj⟩
  rw [h.numbered] at hmem
  exact (List.mem_range'_1.1 hmem).1

/-- The next leaves are the children. -/
theorem mem_leaves_iff (h : Sown a b a.leaves outcomes fields) :
    j ∈ (b.descend a.branches.size).leaves ↔ ∃ i ∈ a.leaves, j ∈ fields i := by
  show j ∈ List.range' _ _ ↔ _
  rw [← h.numbered, List.mem_flatMap]

/-- **A child is the branch of an element of its parent.** -/
theorem exists_branch (h : Sown a b a.leaves outcomes fields)
    (hi : i ∈ a.leaves) (hj : j ∈ fields i) :
    ∃ x, b.branches[j]? = some x ∧ x.parent = some i ∧ x.children = [] ∧
      x.locals = [] ∧
      x.origin = x.stream := by
  have hmem := List.mem_map_of_mem (f := (b.branches[·]?)) hj
  rw [h.sown i hi] at hmem
  obtain ⟨x, hx, heq⟩ := List.mem_map.1 hmem
  obtain ⟨_, _, rfl⟩ := List.mem_map.1 hx
  exact ⟨_, heq.symm, rfl, rfl, rfl, rfl⟩

/-- A leaf after the line. -/
theorem getElem?_leaf (h : Sown a b a.leaves outcomes fields)
    (hready : a.Ready n) (hi : i ∈ a.leaves) :
    b.branches[i]? = a.branches[i]?.map fun x =>
      { x.hold (a.after outcomes i) with children := fields i } := by
  rw [h.settled i hi]
  obtain ⟨x, hx⟩ := hready.exists_branch hi
  have hnone := hready.childless i hi
  unfold childrenOf at hnone
  unfold after cell
  rw [hx] at hnone ⊢
  show some { x with
    stream := _, locals := _, children := x.children ++ fields i } = _
  rw [show x.children = [] from hnone, List.nil_append]
  rfl

/-- What lies in front of the leaves is as it was. -/
theorem above_eq (h : Sown a b a.leaves outcomes fields) (hready : a.Ready n)
    (hi : i ∈ a.leaves) : b.above i = a.above i := by
  refine above_congr (n := n) (fun j hj => ?_) ?_ (hready.parent_lt i hi)
  · rw [h.kept j (Nat.lt_of_lt_of_le hj hready.le_size) (hready.not_mem_of_lt hj)]
  · rw [h.getElem?_leaf hready hi]
    cases a.branches[i]? <;> rfl

/-- **Where the children of a leaf stand and what they hold** comes from it and
from its elements alone. -/
theorem map_spot_cell (h : Sown a b a.leaves outcomes fields)
    (hready : a.Ready n) (hi : i ∈ a.leaves) :
    (fields i).map (fun j => (b.spot j, b.cell j)) =
      ((outcomes i).elements.getD []).zipIdx.map fun (v, t) =>
        ((a.spot i).below (a.after outcomes i) t, { stream := v }) := by
  -- Both are read off the branch of the child, given what its parent holds.
  let read : Option Branch → Spot × Cell := fun x =>
    ((a.spot i).below (a.after outcomes i) ((x.map Branch.index).getD 0),
      (x.map Branch.cell).getD default)
  have hread : ∀ j ∈ fields i, (b.spot j, b.cell j) = read b.branches[j]? := by
    intro j hj
    obtain ⟨x, hx, hparent, -⟩ := h.exists_branch hi hj
    obtain ⟨y, hy⟩ := hready.exists_branch hi
    have hlt : i < j :=
      Nat.lt_of_lt_of_le (hready.lt_size i hi) (h.le_of_mem hi hj)
    have habove : b.above j = (a.after outcomes i).locals :: a.above i := by
      have hleaf := h.getElem?_leaf hready hi
      rw [hy] at hleaf
      rw [above, hx, Option.bind_some, hparent]
      show (if i < j then b.localsAbove i else []) = _
      rw [if_pos hlt, localsAbove_eq hleaf, h.above_eq hready hi]
      rfl
    unfold spot cell
    rw [habove, hx]
    rfl
  rw [List.map_congr_left hread]
  show (fields i).map (read ∘ (b.branches[·]?)) = _
  rw [← List.map_map, h.sown i hi, List.map_map]
  show (List.map _ _).map _ = _
  rw [List.map_map]
  rfl

/-- **The children are ready for the lines of the block.** -/
theorem ready (h : Sown a b a.leaves outcomes fields) (hready : a.Ready n)
    (hdown : b.Downward) :
    (b.descend a.branches.size).Ready a.branches.size where
  leaves_eq := rfl
  le_size := h.size_le
  downward := hdown
  childless j hj := by
    obtain ⟨i, hi, hji⟩ := h.mem_leaves_iff.1 hj
    obtain ⟨x, hx, -, hchildren, -⟩ := h.exists_branch hi hji
    show (b.branches[j]?.map Branch.children).getD [] = []
    rw [hx]
    exact hchildren
  parent_lt j hj up hup := by
    obtain ⟨i, hi, hji⟩ := h.mem_leaves_iff.1 hj
    obtain ⟨x, hx, hparent, -⟩ := h.exists_branch hi hji
    change b.branches[j]?.bind Branch.parent = some up at hup
    rw [hx, Option.bind_some, hparent] at hup
    obtain rfl := Option.some.inj hup
    exact hready.lt_size i hi

/-! ### On the way back

After the block every child holds something, whatever it is, and the children
are still the leaves. Nothing else has been touched: the parents have their
children, and what can be seen from a parent is as it was when the scope was
opened. So the children of each parent can be folded without regard to the
others. -/

variable {g : Nat → Cell}

/-- The arena with the children at the end of the block. -/
abbrev held (a b : Arena) (g : Nat → Cell) : Arena :=
  (b.descend a.branches.size).hold g

/-- The parents are no leaves. -/
theorem getElem?_held_of_lt (h : Sown a b a.leaves outcomes fields)
    (hj : j < a.branches.size) :
    (held a b g).branches[j]? = b.branches[j]? := by
  rw [getElem?_hold, if_neg]
  · rfl
  · rw [h.mem_leaves_iff]
    rintro ⟨i, hi, hji⟩
    exact absurd (h.le_of_mem hi hji) (Nat.not_le_of_lt hj)

/-- A child holds what the block has left in it. -/
theorem getElem?_held_of_mem (h : Sown a b a.leaves outcomes fields)
    (hi : i ∈ a.leaves) (hj : j ∈ fields i) :
    (held a b g).branches[j]? = b.branches[j]?.map (Branch.hold (g j)) := by
  rw [getElem?_hold, if_pos (h.mem_leaves_iff.2 ⟨i, hi, hj⟩)]
  rfl

/-- A parent has its children still. -/
theorem childrenOf_held (h : Sown a b a.leaves outcomes fields)
    (hready : a.Ready n) (hi : i ∈ a.leaves) :
    (held a b g).childrenOf i = fields i := by
  obtain ⟨x, hx⟩ := hready.exists_branch hi
  unfold childrenOf
  rw [h.getElem?_held_of_lt (hready.lt_size i hi),
    h.getElem?_leaf hready hi, hx]
  rfl

/-- **The scope can be closed on its parents**, whatever the block leaves in
the children. -/
theorem foldable (h : Sown a b a.leaves outcomes fields) (hready : a.Ready n)
    (hdown : b.Downward) :
    (held a b g).Foldable n a.branches.size a.leaves where
  downward := ((h.ready hready hdown).hold g).downward
  range _ hi := hready.mem_leaves_iff.1 hi
  parent_lt i hi up hup := by
    rw [h.getElem?_held_of_lt (hready.lt_size i hi),
      h.getElem?_leaf hready hi] at hup
    refine hready.parent_lt i hi up ?_
    cases hx : a.branches[i]? with
    | none =>
      rw [hx] at hup
      cases hup
    | some x =>
      rw [hx] at hup
      exact hup
  le_child i hi j hj := by
    rw [h.childrenOf_held hready hi] at hj
    exact h.le_of_mem hi hj
  nodup := hready.nodup
  disjoint := by
    have hnodup : (a.leaves.flatMap fields).Nodup := by
      rw [h.numbered]
      exact List.nodup_range'
    refine (List.pairwise_flatMap.1 hnodup).2.imp_of_mem
      fun {i i'} hi hi' hd j hj hji => ?_
    rw [h.childrenOf_held hready hi'] at hj
    rw [h.childrenOf_held hready hi] at hji
    exact hd j hji j hj rfl

/-- What has become of the children of a leaf. -/
theorem yieldsOf_held (h : Sown a b a.leaves outcomes fields)
    (hready : a.Ready n) (hi : i ∈ a.leaves) :
    (held a b g).yieldsOf i = .ok ((fields i).map fun j =>
      { result := (g j).stream, origin := (b.cell j).stream }) := by
  obtain ⟨y, hy⟩ := hready.exists_branch hi
  have hleaf := h.getElem?_leaf hready hi
  rw [← h.getElem?_held_of_lt (g := g) (hready.lt_size i hi), hy] at hleaf
  have hbranch : (held a b g).branch i
      = .ok { y.hold (a.after outcomes i) with children := fields i } := by
    unfold branch
    rw [hleaf]
    rfl
  unfold yieldsOf
  rw [hbranch]
  show (fields i).mapM _ = _
  have hall : ∀ j ∈ fields i, ((held a b g).branch j).map Branch.yield
      = .ok { result := (g j).stream, origin := (b.cell j).stream } := by
    intro j hj
    obtain ⟨x, hx, -, -, -, horigin⟩ := h.exists_branch hi hj
    unfold branch cell
    rw [h.getElem?_held_of_mem hi hj, hx]
    show Except.ok (Yield.mk (g j).stream x.origin) = _
    rw [horigin]
    rfl
  -- For the induction it does not matter where the children are from.
  generalize fields i = ids at hall
  induction ids with
  | nil => rfl
  | cons j ids ih =>
    obtain ⟨hj, hids⟩ := List.forall_mem_cons.1 hall
    rw [List.mapM_cons, hj, ih hids]
    rfl

/-- What can be seen from a leaf after the line. -/
theorem scopeOf_held (h : Sown a b a.leaves outcomes fields)
    (hready : a.Ready n) (hi : i ∈ a.leaves) :
    (held a b g).scopeOf i = .ok ((a.spot i).scope (a.after outcomes i)) := by
  obtain ⟨y, hy⟩ := hready.exists_branch hi
  have hleaf := h.getElem?_leaf hready hi
  rw [← h.getElem?_held_of_lt (g := g) (hready.lt_size i hi), hy] at hleaf
  have habove : (held a b g).above i = b.above i := by
    have hlt := hready.lt_size i hi
    refine above_congr (n := a.branches.size) (fun j hj => ?_) ?_
      fun up hup => ?_
    · rw [h.getElem?_held_of_lt hj]
    · rw [h.getElem?_held_of_lt hlt]
    · rw [← h.getElem?_held_of_lt (g := g) hlt, hleaf] at hup
      have hup' := hready.parent_lt i hi up (by rw [hy]; exact hup)
      exact Nat.lt_of_lt_of_le hup' hready.le_size
  rw [scopeOf_eq hleaf, habove, h.above_eq hready hi]
  unfold spot
  rw [hy]
  rfl

/-- **What a leaf comes to** is what its own children hold, folded. -/
theorem comesTo (h : Sown a b a.leaves outcomes fields) (hready : a.Ready n)
    (hi : i ∈ a.leaves) (form : ScopeForm) :
    (held a b g).comesTo calls form i =
      form.value calls ((a.spot i).scope (a.after outcomes i))
      ((fields i).map fun j =>
        { result := (g j).stream, origin := (b.cell j).stream }) := by
  unfold Arena.comesTo folded ScopeForm.value
  rw [h.yieldsOf_held hready hi, h.scopeOf_held hready hi]
  show (pure _ >>= _) = _
  rw [pure_bind]
  rfl

/-- **The way back**: what is left of the arena is as it was, but for what the
leaves have received. -/
theorem ascend_gather (h : Sown a b a.leaves outcomes fields)
    (hready : a.Ready n) (hdown : b.Downward) {s : OpenScope}
    (hparents : s.parents = a.leaves) (hmark : s.mark = a.branches.size)
    (values : Nat → Value) :
    ((held a b g).gather s.target values s.parents).ascend s =
      a.hold fun i => (a.after outcomes i).receive s.target (values i) := by
  refine ext_getElem? (fun j => ?_) hparents
  rw [getElem?_ascend, getElem?_hold, hparents, hmark]
  by_cases hj : j < a.branches.size
  · rw [if_pos hj, getElem?_gather (h.foldable hready hdown) values hj,
      h.getElem?_held_of_lt hj]
    split
    · next hmem =>
      have hnone := hready.childless j hmem
      unfold childrenOf at hnone
      rw [h.getElem?_leaf hready hmem, Option.map_map]
      obtain ⟨x, hx⟩ := hready.exists_branch hmem
      rw [hx] at hnone ⊢
      change x.children = [] at hnone
      obtain ⟨_, _, _, _, _, _⟩ := x
      obtain rfl := hnone
      cases s.target <;> rfl
    · next hmem => exact h.kept j hj hmem
  · rw [if_neg hj, if_neg fun hmem => hj (hready.lt_size j hmem),
      Array.getElem?_eq_none]
    exact Nat.le_of_not_lt hj

end Sown

end Arena

end StreamScript
