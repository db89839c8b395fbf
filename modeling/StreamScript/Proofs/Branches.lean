import StreamScript.Run.Arena

/-!
# The branches after a move

The arena is an array, and the moves of a run change it in place: they settle
what a line has done on a branch, append the branches of its elements, take
what is in the children of one, and cut the array off. This module says for
each move what is found at every position afterwards. What stays is as much of
a statement as what changes, and one equation says both.

Two things follow for the whole. Children lie behind their parents
(`Arena.Downward`), whatever is done. And a line puts the branches of all its
elements behind what there is, in the order of the leaves and of the elements
(`Arena.Sown`, `Arena.exists_sown`).

A branch sees its own locals and those of the branches above it, and these lie
before it. So what happens behind it is of no matter to it
(`Arena.localsAbove_congr`).
-/

namespace StreamScript

/-- A branch without children. -/
def Branch.childless (b : Branch) : Branch :=
  { b with children := [] }

/-- A branch that has received the value of a scope. -/
def Branch.receive (target : Option String) (v : Value) (b : Branch) : Branch :=
  match target with
  | none => { b with stream := v }
  | some name => { b with locals := b.locals.set name v }

/-- A branch after a line that has given it some children. -/
def Branch.settle (outcome : Outcome) (children : List Nat) (b : Branch) :
    Branch :=
  { b with
    stream := outcome.stream
    locals := Bindings.setAll b.locals outcome.bind.toList
    children := b.children ++ children }

namespace Arena

/-! ## Single changes

All moves are made of changes to single positions, and these are read with
`getElem?`, which also says what is not there. An equation with a case for the
position that is changed says what happens to it and that nothing happens
elsewhere. -/

/-- **A branch after a change** to one of them. -/
theorem getElem?_modify (a : Arena) (id : Nat) (f : Branch → Branch) (j : Nat) :
    (a.modify id f).branches[j]? = if j = id then a.branches[j]?.map f
      else a.branches[j]? := by
  unfold modify
  rw [Array.getElem?_modify]
  by_cases h : j = id
  · rw [if_pos h.symm, if_pos h]
  · rw [if_neg (Ne.symm h), if_neg h]

/-- No branch is added or lost. -/
theorem size_modify (a : Arena) (id : Nat) (f : Branch → Branch) :
    (a.modify id f).branches.size = a.branches.size :=
  Array.size_modify

/-- The value of the root does not change with another branch. -/
theorem output_modify_of_ne {id : Nat} (h : 0 ≠ id) (a : Arena)
    (f : Branch → Branch) :
    (a.modify id f).output = a.output := by
  unfold output
  rw [getElem?_modify, if_neg h]

/-! ## Children

Every branch keeps the numbers of its children. They are larger than its own,
because a child is made when its parent is there already. That is all that
keeps a change of the children from touching the parent, or any branch in front
of it, so it is carried through every move. -/

/-- The children of a branch, none if it is not there. -/
def childrenOf (a : Arena) (id : Nat) : List Nat :=
  (a.branches[id]?.map Branch.children).getD []

/-- **Children lie behind their parents.** -/
def Downward (a : Arena) : Prop :=
  ∀ id, ∀ child ∈ a.childrenOf id, id < child

/-- A change that adds no child keeps the children behind their parents. -/
theorem Downward.of_subset {a b : Arena} (h : a.Downward)
    (hab : ∀ id, b.childrenOf id ⊆ a.childrenOf id) : b.Downward :=
  fun id child hc => h id child (hab id hc)

/-- The root has no children at the beginning. -/
theorem downward_root (input : Value) (locals : Bindings Value) :
    (root input locals).Downward := by
  intro id child hc
  unfold childrenOf at hc
  rcases id with _ | id
  · cases hc
  · rw [show (root input locals).branches[id + 1]? = none from
      Array.getElem?_eq_none (Nat.le_add_left 1 id)] at hc
    cases hc

/-- The children after a change to one branch. -/
theorem childrenOf_modify (a : Arena) (id : Nat) (f : Branch → Branch)
    (j : Nat) :
    (a.modify id f).childrenOf j =
      if j = id then (a.branches[j]?.map fun b => (f b).children).getD []
      else a.childrenOf j := by
  unfold childrenOf
  rw [getElem?_modify]
  by_cases h : j = id
  · rw [if_pos h, if_pos h, Option.map_map]
    rfl
  · rw [if_neg h, if_neg h]

/-- A change that keeps the children of a branch, or leaves it some of them. -/
theorem Downward.modify {a : Arena} (h : a.Downward) (id : Nat)
    {f : Branch → Branch} (hf : ∀ b, (f b).children ⊆ b.children) :
    (a.modify id f).Downward := by
  refine h.of_subset fun j => ?_
  rw [childrenOf_modify]
  split
  · unfold childrenOf
    cases a.branches[j]? with
    | none => exact List.Subset.refl _
    | some b => exact hf b
  · exact List.Subset.refl _

/-- Emptying branches one after the other. -/
theorem getElem?_foldl_emptied (ids : List Nat) (a : Arena) (j : Nat) :
    (ids.foldl (fun a id => a.modify id Branch.emptied) a).branches[j]? =
      if j ∈ ids then a.branches[j]?.map Branch.emptied
      else a.branches[j]? := by
  induction ids generalizing a with
  | nil => rfl
  | cons id ids ih =>
    rw [List.foldl_cons, ih, getElem?_modify]
    by_cases hids : j ∈ ids
    · rw [if_pos hids, if_pos (List.mem_cons_of_mem id hids)]
      by_cases hid : j = id
      · -- A branch that is emptied twice is as empty as before.
        rw [if_pos hid, Option.map_map]
        rfl
      · rw [if_neg hid]
    · rw [if_neg hids]
      by_cases hid : j = id
      · rw [if_pos hid, if_pos (hid ▸ List.mem_cons_self)]
      · rw [if_neg hid, if_neg (by simp [hid, hids])]

/-- **A branch after the children of one have been taken**: they are empty, and
the one has none any more. -/
theorem getElem?_drain {a : Arena} (h : a.Downward) (id j : Nat) :
    (a.drain id).branches[j]? =
      if j = id then a.branches[j]?.map Branch.childless
      else if j ∈ a.childrenOf id then a.branches[j]?.map Branch.emptied
      else a.branches[j]? := by
  show (Arena.modify ((a.childrenOf id).foldl _ a) id
    Branch.childless).branches[j]? = _
  rw [getElem?_modify, getElem?_foldl_emptied]
  by_cases hj : j = id
  · have hself : j ∉ a.childrenOf id :=
      fun hc => Nat.lt_irrefl id (h id id (hj ▸ hc))
    rw [if_pos hj, if_pos hj, if_neg hself]
  · rw [if_neg hj, if_neg hj]

/-- Taking children away leaves fewer, and in the same order. -/
theorem Downward.drain {a : Arena} (h : a.Downward) (id : Nat) :
    (a.drain id).Downward := by
  refine h.of_subset fun j => ?_
  unfold childrenOf
  rw [getElem?_drain h]
  split
  · rw [Option.map_map]
    cases a.branches[j]? with
    | none => exact List.Subset.refl _
    | some b => exact List.nil_subset _
  · split
    · rw [Option.map_map]
      exact List.Subset.refl _
    · exact List.Subset.refl _

/-- The children that are taken are emptied, and not removed. -/
theorem size_drain (a : Arena) (id : Nat) :
    (a.drain id).branches.size = a.branches.size := by
  unfold Arena.drain
  rw [size_modify]
  generalize (a.branches[id]?.map Branch.children).getD [] = ids
  induction ids generalizing a with
  | nil => rfl
  | cons c ids ih => rw [List.foldl_cons, ih, size_modify]

/-- Taking the children of a branch leaves the value of the root alone. -/
theorem output_drain {a : Arena} (h : a.Downward) (id : Nat) :
    (a.drain id).output = a.output := by
  unfold output
  rw [getElem?_drain h]
  by_cases hid : 0 = id
  · rw [if_pos hid, Option.map_map]
    rfl
  · rw [if_neg hid, if_neg fun hc => Nat.not_lt_zero _ (h id 0 hc)]

/-! ## Receiving

The value of a scope goes into the stream of its parent, or into a local of it;
the children are not touched. -/

theorem Downward.receive {a : Arena} (h : a.Downward) (target : Option String)
    (parent : Nat) (v : Value) : (a.receive target parent v).Downward := by
  refine h.modify parent fun b => ?_
  cases target <;> exact List.Subset.refl _

/-! ## Settling

A line writes to a leaf and may give it elements, whose branches are appended.
Their numbers begin where the array ended, and the leaf has them for children.
-/

/-- **A branch after what a line has done on one of them**: that one is
settled, and the branches of the elements are behind what there was. -/
theorem getElem?_settle {a : Arena} {leaf : Nat} (h : leaf < a.branches.size)
    (outcome : Outcome) (j : Nat) :
    (a.settle leaf outcome).branches[j]? =
      if j = leaf then a.branches[j]?.map (Branch.settle outcome
        (List.range' a.branches.size (outcome.elements.getD []).length))
      else if j < a.branches.size then a.branches[j]?
      else (branchesOf leaf (outcome.elements.getD []))[j
        - a.branches.size]? := by
  have grown : (a.branches ++ branchesOf leaf (outcome.elements.getD []))[j]? =
      if j < a.branches.size then a.branches[j]?
      else (branchesOf leaf (outcome.elements.getD []))[j
        - a.branches.size]? := by
    rw [← Array.getElem?_toList, Array.toList_appendList, List.getElem?_append,
      Array.length_toList, Array.getElem?_toList]
  show (Arena.modify { a with branches := a.branches ++ branchesOf leaf _ } leaf
    (Branch.settle outcome _)).branches[j]? = _
  rw [getElem?_modify, grown]
  by_cases hj : j = leaf
  · rw [if_pos hj, if_pos hj, if_pos (hj ▸ h)]
  · rw [if_neg hj, if_neg hj]

/-- There is a branch for every element. -/
theorem length_branchesOf (parent : Nat) (elements : List Value) :
    (branchesOf parent elements).length = elements.length := by
  unfold branchesOf
  rw [List.length_map, List.length_zipIdx]

/-- The array grows by the elements. -/
theorem size_settle (a : Arena) (leaf : Nat) (outcome : Outcome) :
    (a.settle leaf outcome).branches.size
      = a.branches.size + (outcome.elements.getD []).length := by
  unfold settle
  rw [size_modify, ← Array.length_toList, Array.toList_appendList,
    List.length_append, Array.length_toList, length_branchesOf]

/-- The branches of elements have no children yet. -/
theorem children_of_mem_branchesOf {parent : Nat} {elements : List Value}
    {b : Branch} (h : b ∈ branchesOf parent elements) : b.children = [] := by
  obtain ⟨_, _, rfl⟩ := List.mem_map.1 h
  rfl

/-- The children that a line makes lie behind all the branches there were. -/
theorem Downward.settle {a : Arena} (h : a.Downward) {leaf : Nat}
    (hleaf : leaf < a.branches.size) (outcome : Outcome) :
    (a.settle leaf outcome).Downward := by
  intro id child hc
  unfold childrenOf at hc
  rw [getElem?_settle hleaf] at hc
  split at hc
  · next hid =>
    rw [Option.map_map] at hc
    cases hb : a.branches[id]? with
    | none =>
      rw [hb] at hc
      cases hc
    | some b =>
      rw [hb] at hc
      obtain hold | hnew := List.mem_append.1 hc
      · refine h id child ?_
        unfold childrenOf
        rw [hb]
        exact hold
      -- The new children are numbered from the size the arena had.
      · exact Nat.lt_of_lt_of_le (hid ▸ hleaf) (List.mem_range'_1.1 hnew).1
  · split at hc
    · exact h id child hc
    · cases hb : (branchesOf leaf (outcome.elements.getD []))[id
        - a.branches.size]? with
      | none =>
        rw [hb] at hc
        cases hc
      | some b =>
        rw [hb] at hc
        change child ∈ b.children at hc
        rw [children_of_mem_branchesOf (List.mem_of_getElem? hb)] at hc
        cases hc

/-- A line leaves the value of the root alone on every other branch. -/
theorem output_settle_of_pos {a : Arena} {leaf : Nat} (hpos : 0 < leaf)
    (hleaf : leaf < a.branches.size) (outcome : Outcome) :
    (a.settle leaf outcome).output = a.output := by
  unfold output
  rw [getElem?_settle hleaf, if_neg (Nat.ne_of_lt hpos),
    if_pos (Nat.lt_trans hpos hleaf)]

/-- On the root it puts its own. -/
theorem output_settle_root {a : Arena} (h : 0 < a.branches.size)
    (outcome : Outcome) :
    (a.settle 0 outcome).output = outcome.stream := by
  unfold output
  rw [getElem?_settle h, if_pos rfl, Option.map_map,
    Array.getElem?_eq_getElem h]
  rfl

/-! ## Settling on all leaves

The leaves are settled in their order, each on the array that those before it
have left. What comes of it can be said without the order: each leaf has its
own elements, and the numbers that these have are, leaf after leaf, those from
the old size on. This is `Sown`, and most of what is known about a line on many
leaves is read off from it. -/

/-- **What a line has done on some leaves, put into place**: `fields` says
which branches have been made for the elements of each. They are where no
branch was before, and lie in the order of the leaves and of their elements. -/
structure Sown (a b : Arena) (leaves : List Nat) (outcomes : Nat → Outcome)
    (fields : Nat → List Nat) : Prop where
  leaves_eq : b.leaves = a.leaves
  size_le : a.branches.size ≤ b.branches.size
  kept : ∀ j < a.branches.size, j ∉ leaves → b.branches[j]? = a.branches[j]?
  settled : ∀ i ∈ leaves,
    b.branches[i]? = a.branches[i]?.map (Branch.settle (outcomes i) (fields i))
  sown : ∀ i ∈ leaves,
    (fields i).map (b.branches[·]?)
    = (branchesOf i ((outcomes i).elements.getD [])).map some
  numbered : leaves.flatMap fields
    = List.range' a.branches.size (b.branches.size - a.branches.size)

/-- The branches of the elements of one leaf, and those that others are given
after it. -/
def fieldsFrom (first : Nat) (numbers : List Nat) (fields : Nat → List Nat)
    (leaf : Nat) :
    List Nat :=
  if leaf = first then numbers else fields leaf

/-- **One more leaf in front**: its elements have the first numbers, and those
of the others follow. -/
theorem Sown.cons {a b : Arena} {i : Nat} {leaves : List Nat}
    {outcomes : Nat → Outcome} {fields : Nat → List Nat} (hi : i ∉ leaves)
    (hlt : ∀ k ∈ i :: leaves, k < a.branches.size)
    (h : Sown (a.settle i (outcomes i)) b leaves outcomes fields) :
    Sown a b (i :: leaves) outcomes (fieldsFrom i
      (List.range' a.branches.size ((outcomes i).elements.getD []).length)
      fields) := by
  have hilt : i < a.branches.size := hlt i List.mem_cons_self
  have hrest : ∀ k ∈ leaves, k < a.branches.size :=
    fun k hk => hlt k (List.mem_cons_of_mem i hk)
  have hne : ∀ k ∈ leaves, k ≠ i := fun k hk hki => hi (hki ▸ hk)
  have hget := getElem?_settle hilt (outcomes i)
  have hsize := size_settle a i (outcomes i)
  have hle := h.size_le
  have hleaves : b.leaves = a.leaves := h.leaves_eq
  generalize hlen : ((outcomes i).elements.getD []).length = len at hget hsize
  generalize a.settle i (outcomes i) = a₁ at h hget hsize hle
  refine ⟨hleaves, by omega, ?_, ?_, ?_, ?_⟩
  · intro j hj hmem
    obtain ⟨hji, hjl⟩ : j ≠ i ∧ j ∉ leaves := by simpa using hmem
    rw [h.kept j (by omega) hjl, hget, if_neg hji, if_pos hj]
  · intro k hk
    obtain rfl | hk := List.mem_cons.1 hk
    · rw [h.kept k (by omega) hi, hget, if_pos rfl, fieldsFrom, if_pos rfl]
    · rw [h.settled k hk, hget, if_neg (hne k hk), if_pos (hrest k hk),
        fieldsFrom, if_neg (hne k hk)]
  · intro k hk
    obtain rfl | hk := List.mem_cons.1 hk
    · have hbranches :=
        (length_branchesOf k ((outcomes k).elements.getD [])).trans hlen
      rw [fieldsFrom, if_pos rfl]
      refine List.ext_getElem (by simp [hbranches]) fun n hn _ => ?_
      rw [List.length_map, List.length_range'] at hn
      have hnot : a.branches.size + n ∉ leaves := fun hmem => by
        have := hrest _ hmem
        omega
      rw [List.getElem_map, List.getElem_map, List.getElem_range', Nat.one_mul,
        h.kept _ (by omega) hnot, hget, if_neg (by omega), if_neg (by omega),
        Nat.add_sub_cancel_left, List.getElem?_eq_getElem]
    · rw [fieldsFrom, if_neg (hne k hk)]
      exact h.sown k hk
  · have hothers :
        leaves.map (fieldsFrom i (List.range' a.branches.size len) fields)
        = leaves.map fields := List.map_congr_left fun k hk => if_neg (hne k hk)
    rw [List.flatMap_cons, List.flatMap_def, hothers, ← List.flatMap_def,
      h.numbered, hsize, fieldsFrom, if_pos rfl,
        show b.branches.size - a.branches.size
        = len + (b.branches.size - (a.branches.size + len)) by omega]
    exact List.range'_append_1

/-- **Every line is put into place so.** -/
theorem exists_sown {leaves : List Nat} (hnodup : leaves.Nodup) {a : Arena}
    (hlt : ∀ i ∈ leaves, i < a.branches.size) (outcomes : Nat → Outcome) :
    ∃ fields, Sown a (a.commit (leaves.map fun i => (i, outcomes i))) leaves
      outcomes fields := by
  induction leaves generalizing a with
  | nil =>
    refine ⟨fun _ => [], rfl, Nat.le_refl _, fun _ _ _ => rfl, nofun, nofun, ?_⟩
    show [] = List.range' a.branches.size (a.branches.size - a.branches.size)
    rw [Nat.sub_self]
    rfl
  | cons i leaves ih =>
    obtain ⟨hi, hnodup⟩ := List.nodup_cons.1 hnodup
    have hsize := size_settle a i (outcomes i)
    obtain ⟨fields, h⟩ := ih hnodup (a := a.settle i (outcomes i))
        fun k hk => by
      have := hlt k (List.mem_cons_of_mem i hk)
      omega
    exact ⟨_, h.cons hi hlt⟩

/-! ## Cutting off

To close a scope is to cut the array off at its mark. What lies in front is
untouched, and what lies behind is gone. -/

/-- **A branch on the way back**: what lies before the mark is as it was. -/
theorem getElem?_ascend (a : Arena) (s : OpenScope) (j : Nat) :
    (a.ascend s).branches[j]? = if j < s.mark then a.branches[j]?
      else none := by
  show (a.branches.extract 0 s.mark)[j]? = _
  rw [Array.getElem?_extract, Nat.zero_add, Nat.sub_zero]
  by_cases hj : j < s.mark
  · rw [if_pos hj]
    split
    · rfl
    · rw [Array.getElem?_eq_none (by omega)]
  · rw [if_neg hj, if_neg (by omega)]

/-- The array ends at the mark. -/
theorem size_ascend (a : Arena) (s : OpenScope) :
    (a.ascend s).branches.size = min s.mark a.branches.size := by
  show (a.branches.extract 0 s.mark).size = _
  rw [Array.size_extract, Nat.sub_zero]

/-- Cutting off keeps children behind their parents: of a branch that is left
they are the same, and the others have none. -/
theorem Downward.ascend {a : Arena} (h : a.Downward) (s : OpenScope) :
    (a.ascend s).Downward := by
  refine h.of_subset fun j => ?_
  unfold childrenOf
  rw [getElem?_ascend]
  split
  · exact List.Subset.refl _
  · exact List.nil_subset _

theorem output_ascend {s : OpenScope} (h : 0 < s.mark) (a : Arena) :
    (a.ascend s).output = a.output := by
  unfold output
  rw [getElem?_ascend, if_pos h]

/-! ## Looking up

What a branch can see are its own locals and those of the branches above it.
The way up goes from parent to parent, and since a parent lies in front of its
child it ends at the root. -/

/-- The locals of the branches above a branch, the nearest first. -/
def above (a : Arena) (id : Nat) : List (Bindings Value) :=
  match a.branches[id]?.bind Branch.parent with
  | none => []
  | some up => if up < id then a.localsAbove up else []

/-- The way up begins with the branch itself. -/
theorem localsAbove_eq {a : Arena} {id : Nat} {b : Branch}
    (h : a.branches[id]? = some b) :
    a.localsAbove id = b.locals :: a.above id := by
  rw [localsAbove, above, h, Option.bind_some]
  dsimp only
  cases b.parent with
  | none => rfl
  | some up =>
    exact (apply_ite (b.locals :: ·) (up < id) (a.localsAbove up) []).symm

/-- What a branch that is there can see. -/
theorem scopeOf_eq {a : Arena} {id : Nat} {b : Branch}
    (h : a.branches[id]? = some b) :
    a.scopeOf id =
      .ok {
        stream := b.stream
        index := b.index
        vars := b.locals :: a.above id } := by
  unfold scopeOf branch
  rw [h, localsAbove_eq h]
  rfl

/-- A branch that is not there sees nothing. -/
theorem lt_size_of_scopeOf {a : Arena} {id : Nat} {scope : Scope}
    (h : a.scopeOf id = .ok scope) :
    id < a.branches.size := by
  refine Nat.lt_of_not_le fun hle => ?_
  unfold scopeOf branch at h
  rw [Array.getElem?_eq_none hle] at h
  cases h

/-- There is nothing above the root. -/
theorem above_root (a : Arena) : a.above 0 = [] := by
  unfold above
  cases a.branches[0]?.bind Branch.parent with
  | none => rfl
  | some up => exact if_neg (Nat.not_lt_zero up)

/-- A branch that sees something is there. -/
theorem exists_of_scopeOf {a : Arena} {id : Nat} {scope : Scope}
    (h : a.scopeOf id = .ok scope) :
    ∃ b, a.branches[id]? = some b ∧
      scope = {
        stream := b.stream
        index := b.index
        vars := b.locals :: a.above id } := by
  have hlt := lt_size_of_scopeOf h
  refine ⟨a.branches[id], Array.getElem?_eq_getElem hlt, ?_⟩
  rw [scopeOf_eq (Array.getElem?_eq_getElem hlt)] at h
  exact (Except.ok.inj h).symm

/-- The root sees its own value. -/
theorem output_eq_of_scopeOf {a : Arena} {scope : Scope}
    (h : a.scopeOf 0 = .ok scope) :
    a.output = scope.stream := by
  obtain ⟨b, hb, rfl⟩ := exists_of_scopeOf h
  unfold output
  rw [hb]
  rfl

/-- After a line that leaves it a stream, the root sees that. -/
theorem scopeOf_settle_root {a : Arena} {scope : Scope}
    (h : a.scopeOf 0 = .ok scope) (v : Value) :
    (a.settle 0 { stream := v }).scopeOf 0 = .ok (scope.retarget v) := by
  obtain ⟨b, hb, rfl⟩ := exists_of_scopeOf h
  have hsettled := getElem?_settle (lt_size_of_scopeOf h) { stream := v } 0
  rw [if_pos rfl, hb] at hsettled
  rw [scopeOf_eq hsettled, above_root, above_root]
  rfl

/-- **What lies behind a branch is of no matter to what it sees**, and neither
is what the branches up to it hold in their streams. -/
theorem localsAbove_congr {a b : Arena} {n : Nat}
    (h : ∀ j < n, (b.branches[j]?.map fun x => (x.locals, x.parent))
      = a.branches[j]?.map fun x => (x.locals, x.parent)) (j : Nat)
    (hj : j < n) :
    b.localsAbove j = a.localsAbove j := by
  -- By the position: the parent of a branch counts only if it lies in front of
  -- it.
  induction j using Nat.strongRecOn with
  | _ j ih =>
    have hboth := h j hj
    rw [localsAbove, localsAbove]
    cases ha : a.branches[j]? with
    | none =>
      rw [ha, Option.map_none, Option.map_eq_none_iff] at hboth
      rw [hboth]
    | some x =>
      rw [ha] at hboth
      obtain ⟨y, hy, hxy⟩ := Option.map_eq_some_iff.1 hboth
      obtain ⟨hlocals, hparent⟩ := Prod.mk.inj hxy
      rw [hy]
      dsimp only
      rw [hlocals, hparent]
      cases x.parent with
      | none => rfl
      | some up =>
        dsimp only
        split
        · next hup => rw [ih up hup (Nat.lt_trans hup hj)]
        · rfl

/-- The same for the locals above a branch whose parent lies so far in front. -/
theorem above_congr {a b : Arena} {n : Nat}
    (h : ∀ j < n, (b.branches[j]?.map fun x => (x.locals, x.parent))
      = a.branches[j]?.map fun x => (x.locals, x.parent)) {i : Nat}
    (hparent : b.branches[i]?.bind Branch.parent
      = a.branches[i]?.bind Branch.parent)
    (hlt : ∀ up, a.branches[i]?.bind Branch.parent = some up → up < n) :
    b.above i = a.above i := by
  unfold above
  rw [hparent]
  cases hup : a.branches[i]?.bind Branch.parent with
  | none => rfl
  | some up =>
    dsimp only
    rw [localsAbove_congr h up (hlt up hup)]

/-- If all branches have the same locals and parents, the same is above all of
them. -/
theorem above_eq_of_forall {a b : Arena}
    (h : ∀ j : Nat, (b.branches[j]?.map fun x => (x.locals, x.parent))
      = a.branches[j]?.map fun x => (x.locals, x.parent)) (i : Nat) :
      b.above i = a.above i := by
  -- Any bound that the parent stays below will do.
  let n := (a.branches[i]?.bind Branch.parent).getD 0 + 1
  have hparent := congrArg (Option.bind · Prod.snd) (h i)
  simp only [Option.bind_map] at hparent
  refine above_congr (n := n) (fun j _ => h j) hparent fun up hup => ?_
  show up < (a.branches[i]?.bind Branch.parent).getD 0 + 1
  rw [hup]
  exact Nat.lt_succ_self up

end Arena

end StreamScript
