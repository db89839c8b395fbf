import StreamScript.Proofs.Blocks

/-!
# Branches in layers

The branches of a run lie in layers. The first is the root; every open scope
has put one more on top, with the children of all branches of the layer below,
in their order, and nothing else. So the array holds the layers one after the
other, and where a scope has its mark its layer begins (`Layered`). Between two
lines no more than that is there (`Machine.Grown`): the leaves are the last
layer and have no children yet.

A line keeps this, since it changes what leaves hold or puts one layer on top
(`Machine.Grown.after`). Closing a scope keeps it too: folding takes away the
children of the branches the scope was opened on, and those are the last layer,
which is then cut off (`Drive.closeScope_grown`). So a run that begins on its
root is in layers wherever it comes through (`Drive.Reaches.grown`).
-/

namespace StreamScript

variable {σ : Type} {host : Host σ} {calls : Callables σ} {token : Option Nat}

/-! ## Seats and layers

A branch is seated by its parent and by its position among the elements of
that. What a branch holds changes from line to line, but where it stands never
does. So a layer is described by seats and children, and the statement that the
arena is made of layers goes through all changes of what branches hold. -/

/-- Where a branch stands: its position among the elements, and its parent. -/
def Branch.seat (b : Branch) : Nat × Option Nat :=
  (b.index, b.parent)

namespace Arena

/-- Where a position stands. -/
def seat? (a : Arena) (id : Nat) : Option (Nat × Option Nat) :=
  a.branches[id]?.map Branch.seat

/-- **A branch with its children in order**: they are numbered from 0, and it
is their parent. The number of a child is its index, the place of its element
in the scope. That the children stand in order is what lets a scope collect its
results from left to right. -/
def Fanned (a : Arena) (i : Nat) : Prop :=
  (a.childrenOf i).map a.seat?
    = (List.range (a.childrenOf i).length).map fun k => some (k, some i)

end Arena

/-- **The layers of an arena**, below a layer of leaves and up to a size. A
branch is never moved, so what a scope has put on top of the array stays there
until the scope is closed and the array is cut off at its mark. The branches a
scope was opened on are the leaves of the time, and one layer is the children
of them all, in order. -/
inductive Layered (a : Arena) : List OpenScope → List Nat → Nat → Prop
  /-- The root alone. -/
  | root : Layered a [] [0] 1
  /-- A layer on top: the children of the branches of the one below. -/
  | scope {s : OpenScope} {outer : List OpenScope} {size : Nat}
      (below : Layered a outer s.parents s.mark) (mark_le : s.mark ≤ size)
      (children : s.parents.flatMap a.childrenOf
        = List.range' s.mark (size - s.mark))
      (fanned : ∀ i ∈ s.parents, a.Fanned i) :
      Layered a (s :: outer) (List.range' s.mark (size - s.mark)) size

namespace Layered

variable {a b : Arena} {scopes : List OpenScope} {layer : List Nat} {size : Nat}

/-- With no scope there is only the layer of the root. -/
theorem of_nil (h : Layered a [] layer size) : layer = [0] ∧ size = 1 := by
  cases h with
  | root => exact ⟨rfl, rfl⟩

/-- The last layer, and what is below it. -/
theorem of_cons {s : OpenScope} {outer : List OpenScope}
    (h : Layered a (s :: outer) layer size) :
    Layered a outer s.parents s.mark ∧ s.mark ≤ size ∧
      layer = List.range' s.mark (size - s.mark) ∧
      s.parents.flatMap a.childrenOf = layer ∧
      ∀ i ∈ s.parents, a.Fanned i := by
  cases h with
  | scope below mark_le children fanned =>
    exact ⟨below, mark_le, rfl, children, fanned⟩

/-- The children of the branches of the innermost scope are what lies behind
its mark. -/
theorem mem_children_iff {s : OpenScope} {outer : List OpenScope}
    (h : Layered a (s :: outer) layer size) {j : Nat} :
    j ∈ s.parents.flatMap a.childrenOf ↔ s.mark ≤ j ∧ j < size := by
  obtain ⟨-, hmark, hlayer, hchildren, -⟩ := h.of_cons
  rw [hchildren, hlayer, List.mem_range'_1]
  omega

/-- A layer is what lies behind some position. -/
theorem exists_range' (h : Layered a scopes layer size) :
    ∃ n ≤ size, layer = List.range' n (size - n) := by
  cases h with
  | root => exact ⟨0, Nat.zero_le 1, rfl⟩
  | @scope s outer size below mark_le children fanned =>
    exact ⟨s.mark, mark_le, rfl⟩

/-- All branches of a layer are there, -/
theorem lt_size (h : Layered a scopes layer size) : ∀ i ∈ layer, i < size := by
  obtain ⟨n, hn, rfl⟩ := h.exists_range'
  intro i hi
  have hlt := (List.mem_range'_1.1 hi).2
  omega

/-- and none of them comes twice. -/
theorem nodup (h : Layered a scopes layer size) : layer.Nodup := by
  obtain ⟨n, -, rfl⟩ := h.exists_range'
  exact List.nodup_range'

/-- There is always the root. -/
theorem size_pos (h : Layered a scopes layer size) : 0 < size := by
  induction h with
  | root => exact Nat.one_pos
  | scope _ mark_le _ _ ih => exact Nat.lt_of_lt_of_le ih mark_le

/-- The marks lie below. -/
theorem le_of_mem (h : Layered a scopes layer size) {s : OpenScope}
    (hs : s ∈ scopes) :
    s.mark ≤ size ∧ ∀ i ∈ layer, s.mark ≤ i := by
  induction h with
  | root => cases hs
  | @scope t outer size below mark_le children fanned ih =>
    have hlayer : ∀ i ∈ List.range' t.mark (size - t.mark),
        t.mark ≤ i := fun i hi =>
      (List.mem_range'_1.1 hi).1
    obtain rfl | hs := List.mem_cons.1 hs
    · exact ⟨mark_le, hlayer⟩
    · have hle := (ih hs).1
      exact ⟨Nat.le_trans hle mark_le,
        fun i hi => Nat.le_trans hle (hlayer i hi)⟩

/-- The branches that a scope was opened on lie below its mark. -/
theorem lt_mark (h : Layered a scopes layer size) {s : OpenScope}
    (hs : s ∈ scopes) :
    ∀ i ∈ s.parents, i < s.mark := by
  induction h with
  | root => cases hs
  | scope below _ _ _ ih =>
    obtain rfl | hs := List.mem_cons.1 hs
    · exact below.lt_size
    · exact ih hs

/-- No scope was opened on a branch of the last layer. -/
theorem not_mem_layer (h : Layered a scopes layer size) {s : OpenScope}
    (hs : s ∈ scopes) {i : Nat} (hi : i ∈ s.parents) : i ∉ layer := fun hmem =>
  absurd (h.lt_mark hs i hi) (Nat.not_lt_of_le ((h.le_of_mem hs).2 i hmem))

/-- **Every branch is in some layer**: the last, or one that a scope was opened
on. So nothing in the array is out of reach: it is a leaf, or a scope will fold
into it. -/
theorem mem_or_exists (h : Layered a scopes layer size) {j : Nat}
    (hj : j < size) :
    j ∈ layer ∨ ∃ s ∈ scopes, j ∈ s.parents := by
  induction h with
  | root => exact .inl (List.mem_singleton.2 (Nat.lt_one_iff.1 hj))
  | @scope s outer size below mark_le children fanned ih =>
    by_cases hlt : j < s.mark
    · obtain hmem | ⟨t, ht, hmem⟩ := ih hlt
      · exact .inr ⟨s, List.mem_cons_self, hmem⟩
      · exact .inr ⟨t, List.mem_cons_of_mem s ht, hmem⟩
    · refine .inl (List.mem_range'_1.2 ?_)
      omega

/-- The children of the branches that a scope was opened on are there. -/
theorem child_lt_size (h : Layered a scopes layer size) {s : OpenScope}
    (hs : s ∈ scopes) {i c : Nat} (hi : i ∈ s.parents)
    (hc : c ∈ a.childrenOf i) : c < size := by
  induction h with
  | root => cases hs
  | @scope t outer size below mark_le children fanned ih =>
    obtain rfl | hs := List.mem_cons.1 hs
    · have hmem : c ∈ s.parents.flatMap a.childrenOf :=
        List.mem_flatMap.2 ⟨i, hi, hc⟩
      exact ((scope below mark_le children fanned).mem_children_iff.1 hmem).2
    · exact Nat.lt_of_lt_of_le (ih hs) mark_le

/-- **Layers depend on children and seats alone**: on the children of the
branches that scopes were opened on, and on where the branches stand. What a
line does to streams and locals leaves the layers alone, and this lemma is how
that is said once for all lines. -/
theorem congr (h : Layered a scopes layer size)
    (hchildren : ∀ s ∈ scopes, ∀ i ∈ s.parents, b.childrenOf i = a.childrenOf i)
    (hseat : ∀ j < size, b.seat? j = a.seat? j) :
    Layered b scopes layer size := by
  induction h with
  | root => exact .root
  | @scope s outer size below mark_le children fanned ih =>
    obtain ⟨hs, houter⟩ := List.forall_mem_cons.1 hchildren
    refine .scope (ih houter fun j hj =>
      hseat j (Nat.lt_of_lt_of_le hj mark_le)) mark_le ?_ fun i hi => ?_
    · rw [← children, List.flatMap_def, List.flatMap_def,
        List.map_congr_left hs]
    · have hlt : ∀ c ∈ a.childrenOf i, b.seat? c = a.seat? c := fun c hc => by
        have hmem : c ∈ s.parents.flatMap a.childrenOf :=
          List.mem_flatMap.2 ⟨i, hi, hc⟩
        exact hseat c
          ((scope below mark_le children fanned).mem_children_iff.1 hmem).2
      unfold Arena.Fanned
      rw [hs i hi, List.map_congr_left hlt]
      exact fanned i hi

/-- **A branch of a layer has its parent in the layer below.** It is among the
children of one of the branches below, and those are fanned. -/
theorem exists_parent {s : OpenScope} {outer : List OpenScope}
    (h : Layered a (s :: outer) layer size) {j : Nat} (hj : j ∈ layer) :
    ∃ i ∈ s.parents, ∃ k, a.seat? j = some (k, some i) := by
  obtain ⟨-, -, -, hchildren, hfanned⟩ := h.of_cons
  rw [← hchildren] at hj
  obtain ⟨i, hi, hji⟩ := List.mem_flatMap.1 hj
  have hseat := List.mem_map_of_mem (f := a.seat?) hji
  rw [hfanned i hi] at hseat
  obtain ⟨k, -, hk⟩ := List.mem_map.1 hseat
  exact ⟨i, hi, k, hk.symm⟩

end Layered

theorem Arena.bind_parent_eq (a : Arena) (i : Nat) :
    a.branches[i]?.bind Branch.parent = (a.seat? i).bind Prod.snd := by
  unfold seat?
  cases a.branches[i]? <;> rfl

/-- **A machine whose branches lie in layers**, with leaves that have no
children yet. The last is what makes them leaves: a scope that is opened gives
all of them children at once, and when it is closed takes them away again. -/
structure Machine.Grown (m : Machine) : Prop where
  downward : m.arena.Downward
  layered : Layered m.arena m.scopes m.arena.leaves m.arena.branches.size
  childless : ∀ i ∈ m.arena.leaves, m.arena.childrenOf i = []
  root : (m.arena.seat? 0).bind Prod.snd = none

/-- The state that a run begins with: a root without children, and no scope. -/
theorem Machine.grown_start (input : Value) (locals : Bindings Value) :
    (Progress.start input locals).machine.Grown where
  downward := Arena.downward_root input locals
  layered := .root
  childless := (Arena.ready_root input locals).childless
  root := rfl

namespace Machine.Grown

variable {m : Machine}

/-- It is ready for a line. -/
theorem ready (h : m.Grown) : ∃ n, m.arena.Ready n := by
  obtain ⟨hdown, hlayered, hchildless, hroot⟩ := h
  generalize hscopes : m.scopes = scopes at hlayered
  generalize hleaves : m.arena.leaves = layer at hlayered
  generalize hsize : m.arena.branches.size = size at hlayered
  cases hlayered with
  | root =>
    refine ⟨0, ⟨?_, Nat.zero_le _, hdown, hchildless, fun i hi up hup => ?_⟩⟩
    · rw [hleaves, hsize]
      rfl
    · rw [hleaves] at hi
      obtain rfl := List.mem_singleton.1 hi
      rw [Arena.bind_parent_eq, hroot] at hup
      cases hup
  | @scope s outer size below mark_le children fanned =>
    have hlayered :
        Layered m.arena (s :: outer)
        (List.range' s.mark (size - s.mark)) size :=
      .scope below mark_le children fanned
    refine ⟨s.mark,
      ⟨?_, hsize ▸ mark_le, hdown, hchildless, fun i hi up hup => ?_⟩⟩
    · rw [hleaves, hsize]
    · rw [hleaves] at hi
      obtain ⟨i', hi', k, hseat⟩ := hlayered.exists_parent hi
      rw [Arena.bind_parent_eq, hseat] at hup
      obtain rfl := Option.some.inj hup
      exact below.lt_size _ hi'

end Machine.Grown

/-! ## A line on all leaves

What a line leaves in the arena is described by `Sown`: the old branches stand
where they stood, and behind them come the elements of the leaves, those of the
first leaf first. If the line opens a scope these are the next layer, and if it
does not there are none. -/

namespace Arena.Sown

variable {a b : Arena} {outcomes : Nat → Outcome} {fields : Nat → List Nat}

/-- The branches there were stand where they stood. -/
theorem seat?_eq (h : Sown a b a.leaves outcomes fields) {j : Nat}
    (hj : j < a.branches.size) :
    b.seat? j = a.seat? j := by
  unfold seat?
  by_cases hmem : j ∈ a.leaves
  · rw [h.settled j hmem, Option.map_map]
    rfl
  · rw [h.kept j hj hmem]

/-- The others keep their children. -/
theorem childrenOf_of_not_mem (h : Sown a b a.leaves outcomes fields) {j : Nat}
    (hj : j < a.branches.size) (hmem : j ∉ a.leaves) :
    b.childrenOf j = a.childrenOf j := by
  unfold childrenOf
  rw [h.kept j hj hmem]

/-- A leaf that had no children has those of its elements. -/
theorem childrenOf_of_mem (h : Sown a b a.leaves outcomes fields) {n : Nat}
    (hready : a.Ready n) {i : Nat} (hi : i ∈ a.leaves) :
    b.childrenOf i = fields i := by
  obtain ⟨x, hx⟩ := hready.exists_branch hi
  unfold childrenOf
  rw [h.getElem?_leaf hready hi, hx]
  rfl

/-- **The elements of a leaf are its children in order.** They are appended to
the array in the order of the elements, and the number that each is given
counts from 0. -/
theorem fanned (h : Sown a b a.leaves outcomes fields) {n : Nat}
    (hready : a.Ready n) {i : Nat} (hi : i ∈ a.leaves) : b.Fanned i := by
  have hseats : (fields i).map b.seat?
      = (branchesOf i ((outcomes i).elements.getD [])).map fun x =>
      some x.seat := by
    show (fields i).map (Option.map Branch.seat ∘ (b.branches[·]?)) = _
    rw [← List.map_map, h.sown i hi, List.map_map]
    rfl
  have hlength := congrArg List.length (h.sown i hi)
  rw [List.length_map, List.length_map, length_branchesOf] at hlength
  unfold Fanned
  rw [h.childrenOf_of_mem hready hi, hseats, hlength]
  unfold branchesOf
  rw [List.map_map]
  refine List.ext_getElem (by simp) fun k hk hk' => ?_
  simp [Branch.seat]

end Arena.Sown

/-- What is made of every element of a list, as a function of the element. -/
theorem exists_map_eq {α β : Type} [DecidableEq α] [Inhabited β] {l : List α}
    (hl : l.Nodup) {bs : List β} (h : bs.length = l.length) :
    ∃ f : α → β, l.map f = bs := by
  refine ⟨fun a => bs[l.idxOf a]?.getD default,
    List.ext_getElem (by simp [h]) fun k hk hk' => ?_⟩
  rw [List.getElem_map, hl.idxOf_getElem k, List.getElem?_eq_getElem hk']
  rfl

namespace Machine.Grown

variable {m : Machine} {action : Action}

/-- **A line that opens no scope** keeps the layers. It settles every leaf, and
what is settled are stream and locals. By `helements` no leaf is given
children. -/
theorem after_of_not_opened (h : m.Grown) (line : Nat)
    (hopened : action.opened? = none) {outcomes : Nat → Outcome}
    (helements : ∀ i ∈ m.arena.leaves, (outcomes i).elements = none) :
    (m.after line action (m.arena.leaves.map outcomes)).Grown := by
  obtain ⟨n, hready⟩ := h.ready
  rw [Machine.after_of_not_opened hready line hopened helements]
  generalize m.arena.after outcomes = g
  have hchildren := Arena.Ready.childrenOf_hold m.arena g
  have hseat : ∀ j, (m.arena.hold g).seat? j = m.arena.seat? j := fun j => by
    unfold Arena.seat?
    rw [Arena.getElem?_hold]
    split
    · rw [Option.map_map]
      rfl
    · rfl
  have hlayered :
      Layered (m.arena.hold g) m.scopes m.arena.leaves m.arena.branches.size :=
    h.layered.congr (fun _ _ i _ => hchildren i) fun j _ => hseat j
  refine ⟨(hready.hold g).downward, ?_, (hready.hold g).childless, ?_⟩
  · show Layered (m.arena.hold g) m.scopes m.arena.leaves
        (m.arena.hold g).branches.size
    rw [Arena.size_hold]
    exact hlayered
  · show ((m.arena.hold g).seat? 0).bind Prod.snd = none
    rw [hseat]
    exact h.root

/-- **A line that opens a scope** puts a layer on top. It is put there even if
no leaf has an element. Then the layer is empty, and the lines in the block do
nothing until the scope is closed. -/
theorem after_of_opened (h : m.Grown) (line : Nat) {form : ScopeForm}
    {target : Option String} (hopened : action.opened? = some (form, target))
    (outcomes : Nat → Outcome) :
    (m.after line action (m.arena.leaves.map outcomes)).Grown := by
  obtain ⟨n, hready⟩ := h.ready
  obtain ⟨hdown, fields, hsown⟩ := hready.commit outcomes
  rw [Machine.after_of_opened m line hopened]
  generalize m.arena.commit (m.arena.leaves.map fun i => (i, outcomes i))
    = b at hdown hsown
  have hready' := hsown.ready hready hdown
  have hchildren :
      m.arena.leaves.map b.childrenOf = m.arena.leaves.map fields :=
    List.map_congr_left fun i hi => hsown.childrenOf_of_mem hready hi
  -- Below the last layer nothing has changed, since its branches are no
  -- parents of the scope that is closed.
  have hbelow : Layered b m.scopes m.arena.leaves m.arena.branches.size := by
    refine h.layered.congr (fun s hs i hi => ?_) fun j hj => hsown.seat?_eq hj
    have hlt : i < m.arena.branches.size :=
      Nat.lt_of_lt_of_le (h.layered.lt_mark hs i hi) (h.layered.le_of_mem hs).1
    exact hsown.childrenOf_of_not_mem hlt (h.layered.not_mem_layer hs hi)
  let s : OpenScope :=
    { line, form, target, parents := m.arena.leaves,
      mark := m.arena.branches.size }
  have hlayered : Layered b (s :: m.scopes)
      (List.range' s.mark (b.branches.size - s.mark)) b.branches.size := by
    refine .scope hbelow hsown.size_le ?_ fun i hi => hsown.fanned hready hi
    rw [List.flatMap_def, hchildren, ← List.flatMap_def, hsown.numbered]
  refine ⟨hready'.downward, ?_, hready'.childless, ?_⟩
  · exact hlayered.congr (fun _ _ _ _ => rfl) fun _ _ => rfl
  · show (b.seat? 0).bind Prod.snd = none
    rw [hsown.seat?_eq h.layered.size_pos]
    exact h.root

end Machine.Grown

/-! ## Closing a scope

While a scope is closed the arena is not in layers: some parents have been
folded into and have lost their children, others have not. It is compared with
the arena before (`Arena.FoldedInto`), and that is in layers. When all parents
have been folded into, the last layer belongs to nobody and is cut off. -/

/-- A fold leaves branches where they stand. -/
theorem Arena.seat?_fold {a : Arena} (h : a.Downward) (target : Option String)
    (i : Nat) (v : Value) (j : Nat) :
    (a.fold target i v).seat? j = a.seat? j := by
  have hreceive : ∀ b : Branch, (b.childless.receive target v).seat = b.seat := by
    intro b
    cases target <;> rfl
  unfold seat?
  rw [getElem?_fold h]
  split
  · rw [Option.map_map]
    exact congrArg (Option.map · _) (funext hreceive)
  · split
    · rw [Option.map_map]
      rfl
    · rfl

/-- **An arena that some branches have been folded in**: they have no children
any more, and that is all that shows of the layers. The branches that were
their children are still in the array. They are cut off when all branches of
the layer below have been folded into. -/
structure Arena.FoldedInto (a b : Arena) (parents : List Nat) : Prop where
  downward : b.Downward
  size_eq : b.branches.size = a.branches.size
  seat?_eq : ∀ j, b.seat? j = a.seat? j
  childrenOf_eq : ∀ j, b.childrenOf j = if j ∈ parents then []
    else a.childrenOf j

/-- One more branch folded into. -/
theorem Arena.FoldedInto.cons {a b c : Arena} {i : Nat} {parents : List Nat}
    (h : a.FoldedInto b [i]) (h' : b.FoldedInto c parents) :
    a.FoldedInto c (i :: parents) where
  downward := h'.downward
  size_eq := h'.size_eq.trans h.size_eq
  seat?_eq j := (h'.seat?_eq j).trans (h.seat?_eq j)
  childrenOf_eq j := by
    rw [h'.childrenOf_eq, h.childrenOf_eq]
    by_cases hj : j ∈ parents
    · rw [if_pos hj, if_pos (List.mem_cons_of_mem i hj)]
    · rw [if_neg hj]
      simp only [List.mem_cons, hj, or_false, List.not_mem_nil]

namespace Drive

variable {s : OpenScope} {p q : Progress} {w v : World σ}

/-- **Folding into a branch** takes its children away. What the children have
come to is put into the stream or a local of the branch, neither of which the
layers depend on. -/
theorem foldParent_foldedInto {i : Nat} (h : p.arena.Downward)
    (hf : (foldParent calls s i).exec p w = (.ok (), q, v)) :
    p.arena.FoldedInto q.arena [i] := by
  obtain ⟨yields, x, -, -, rfl⟩ := exec_foldParent_eq_ok hf
  refine ⟨(h.drain i).receive s.target i x, ?_, Arena.seat?_fold h s.target i x,
    fun j => ?_⟩
  · exact (Arena.size_modify _ _ _).trans (Arena.size_drain _ _)
  · simp only [List.mem_singleton]
    exact Arena.childrenOf_fold h s.target i x j

/-- Folding into several, one after the other. -/
theorem foldParents_foldedInto {parents : List Nat} (h : p.arena.Downward)
    (hf : (foldParents calls s parents).exec p w = (.ok (), q, v)) :
    p.arena.FoldedInto q.arena parents := by
  induction parents generalizing p w with
  | nil =>
    cases hf
    exact ⟨h, rfl, fun _ => rfl, fun _ => rfl⟩
  | cons i parents ih =>
    obtain ⟨_, p₁, w₁, hfirst, hrest⟩ := exec_bind_eq_ok.1 hf
    have hfolded := foldParent_foldedInto h hfirst
    exact hfolded.cons (ih hfolded.downward hrest)

/-- **Closing a scope** cuts its layer off, and no other. The branches the
scope was opened on are leaves again: their children have been taken away, and
their layer is the one that is on top now. -/
theorem closeScope_grown (h : p.machine.Grown)
    (hc : (closeScope host calls).exec p w = (.ok (), q, v)) :
    q.machine.Grown := by
  cases hs : p.scopes with
  | nil =>
    rw [exec_closeScope_nil hs] at hc
    cases hc
    exact h
  | cons s outer =>
    rw [exec_closeScope_cons hs, exec_collect] at hc
    have hlayered := h.layered
    rw [show p.machine.scopes = s :: outer from hs] at hlayered
    let p' : Progress :=
      { p with machine := { p.machine with scopes := outer } }
    have hframe := exec_foldParents_frame calls s s.parents p' (w.pause host)
    rcases hf : (foldParents calls s s.parents).exec p' (w.pause host) with
      ⟨_ | _, q', v'⟩ <;>
      rw [hf] at hc hframe <;> cases hc
    obtain ⟨hdown, hsize, hseat, hchildren⟩ :=
      foldParents_foldedInto (p := p') h.downward hf
    obtain ⟨hbelow, hmark, -⟩ := hlayered.of_cons
    -- What lies below the mark is as it was but for the children of the
    -- branches folded into.
    have hkept : ∀ j < s.mark, (q'.arena.ascend s).seat? j = p.arena.seat? j := by
      intro j hj
      have hq := hseat j
      unfold Arena.seat? at hq ⊢
      rw [Arena.getElem?_ascend, if_pos hj]
      exact hq
    have hascend : ∀ j < s.mark, (q'.arena.ascend s).childrenOf j
        = if j ∈ s.parents then [] else p.arena.childrenOf j := fun j hj => by
      have hq := hchildren j
      unfold Arena.childrenOf at hq ⊢
      rw [Arena.getElem?_ascend, if_pos hj]
      exact hq
    have hsize' : (q'.arena.ascend s).branches.size = s.mark := by
      rw [Arena.size_ascend, hsize]
      exact Nat.min_eq_left hmark
    refine ⟨hdown.ascend s, ?_, fun i hi => ?_, ?_⟩
    · show Layered (q'.arena.ascend s) q'.scopes s.parents
          (q'.arena.ascend s).branches.size
      rw [hframe.1, hsize']
      refine hbelow.congr (fun t ht i hi => ?_) hkept
      have hlt : i < s.mark :=
        Nat.lt_of_lt_of_le (hbelow.lt_mark ht i hi) (hbelow.le_of_mem ht).1
      exact (hascend i hlt).trans (if_neg (hbelow.not_mem_layer ht hi))
    · exact (hascend i (hbelow.lt_size i hi)).trans (if_pos hi)
    · show ((q'.arena.ascend s).seat? 0).bind Prod.snd = none
      rw [hkept 0 hbelow.size_pos]
      exact h.root

theorem closeScopes_grown {n : Nat} (h : p.machine.Grown)
    (hc : (closeScopes host calls n).exec p w = (.ok (), q, v)) :
    q.machine.Grown := by
  induction n generalizing p w with
  | zero =>
    cases hc
    exact h
  | succ n ih =>
    obtain ⟨_, p₁, w₁, hfirst, hrest⟩ := exec_bind_eq_ok.1 hc
    exact ih (closeScope_grown h hfirst) hrest

theorem closeTo_grown {depth : Nat} (h : p.machine.Grown)
    (hc : (closeTo host calls depth).exec p w = (.ok (), q, v)) :
    q.machine.Grown :=
  closeScopes_grown h (exec_closeTo depth p w ▸ hc)

/-! ## Taking lines

Nothing else touches the arena. To take a line is to close scopes and to
execute it, so it keeps what both keep. -/

/-- **Executing a line** keeps the layers. Whether the line opens a scope is
known from the line alone, and is the same for all leaves. So the new layer is
either there for all of them or for none. -/
theorem step_grown {x : Placed Step} (hx : x.content.isBlank = false)
    (h : p.machine.Grown) {exits : Bool}
    (ht : (step host calls x).exec p w = (.ok exits, q, v)) :
    q.machine.Grown := by
  obtain ⟨action, outcomes, -, houtcomes, -, rfl⟩ := exec_step_eq_ok hx ht
  obtain ⟨f, rfl⟩ :=
    exists_map_eq h.layered.nodup (Act.length_of_mapM houtcomes)
  cases hopened : action.opened? with
  | some opened => exact h.after_of_opened x.line hopened f
  | none =>
    refine h.after_of_not_opened x.line hopened fun i hi => ?_
    obtain ⟨leaf, -, w', v', hleaf⟩ :=
      Act.exists_of_mem_mapM houtcomes (List.mem_map_of_mem (f := f) hi)
    obtain ⟨scope, w₁, -, hexecute⟩ := Act.exec_bind_eq_ok.1 hleaf
    exact Action.elements_eq_none hopened hexecute

/-- **Taking a line** keeps the layers. Closing scopes comes first, and takes
off as many layers as the line stands less deep. -/
theorem take_grown {x : Placed Step} (hx : x.content.isBlank = false)
    (h : p.machine.Grown) {exits : Bool}
    (ht : (take host calls x).exec p w = (.ok exits, q, v)) :
    q.machine.Grown := by
  obtain ⟨p₁, w₁, hclose, hstep⟩ := exec_take_eq_ok ht
  have hgrown := closeTo_grown h hclose
  exact step_grown (p := { p₁ with lastLine := x.line }) hx hgrown hstep

/-- **A run keeps the layers** wherever it comes through. It begins with the
root alone, which is a leaf without children, so the layers are there in every
run (`Machine.grown_start`). -/
theorem Reaches.grown {l l' : List (Placed Step)}
    (h : Reaches host calls token l p w l' q v) (hp : p.machine.Grown) :
    q.machine.Grown := by
  induction h with
  | here => exact hp
  | blank _ _ ih => exact ih hp
  | line hs ht _ _ ih => exact ih (take_grown hs hp ht)

end Drive

end StreamScript
