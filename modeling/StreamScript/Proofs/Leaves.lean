import Mathlib.Tactic.Choose
import StreamScript.Proofs.Branches
import StreamScript.Proofs.PerElement

/-!
# Leaves

The leaves of a run are where its lines are executed. This module reads the
arena from there: what a leaf holds (`Arena.cell`), where it stands
(`Arena.spot`), and what the arena is like if the leaves hold something else
and nothing else has changed (`Arena.hold`).

`Arena.Ready` says when lines can be executed: the leaves are the last branches
of the array, they have no children, and all that they can see lies before the
first of them. Then what one leaf does is of no matter to the others, and doing
something on every leaf is doing it on each (`Each`). Doing one thing on all of
them and then another is doing both on each (`each_bind`).
-/

namespace StreamScript

variable {σ : Type} {calls : Callables σ} {w : World σ}

instance : Inhabited Cell := ⟨{ stream := .empty }⟩

instance : Inhabited Yield := ⟨{ result := .empty, origin := .empty }⟩

instance : Inhabited Outcome := ⟨{ stream := .empty }⟩

/-! ## What leaves hold, and where they stand

A branch holds a stream and locals, which lines change, and it stands at a
position among its siblings, below the branches above it, which they do not.
Elements that are read one after the other know their branch by these two
things alone, so the arena is taken apart in the same way. -/

/-- What a branch holds. -/
def Branch.cell (b : Branch) : Cell :=
  { stream := b.stream, locals := b.locals }

/-- A branch that holds something else. -/
def Branch.hold (c : Cell) (b : Branch) : Branch :=
  { b with stream := c.stream, locals := c.locals }

namespace Arena

/-- What is held at a position. -/
def cell (a : Arena) (id : Nat) : Cell :=
  (a.branches[id]?.map Branch.cell).getD default

/-- Where a position stands. -/
def spot (a : Arena) (id : Nat) : Spot :=
  { index := (a.branches[id]?.map Branch.index).getD 0, above := a.above id }

/-- **The same arena with something else in its leaves.** -/
def hold (a : Arena) (g : Nat → Cell) : Arena :=
  { a with branches := a.branches.mapIdx fun i b => if i ∈ a.leaves
    then b.hold (g i) else b }

variable {a b : Arena} {n i : Nat} {g g' : Nat → Cell}

/-- Two arenas are the same if they have the same branches and the same
leaves. -/
theorem ext_getElem? (hbranches : ∀ j : Nat, a.branches[j]? = b.branches[j]?)
    (hleaves : a.leaves = b.leaves) : a = b := by
  obtain ⟨xs, l⟩ := a
  obtain ⟨ys, l'⟩ := b
  obtain rfl : xs = ys := Array.ext_getElem? hbranches
  obtain rfl : l = l' := hleaves
  rfl

/-- A branch of the arena with something else in its leaves. -/
theorem getElem?_hold (a : Arena) (g : Nat → Cell) (j : Nat) :
    (a.hold g).branches[j]? =
      if j ∈ a.leaves then a.branches[j]?.map (Branch.hold (g j))
      else a.branches[j]? := by
  show (a.branches.mapIdx _)[j]? = _
  rw [Array.getElem?_mapIdx]
  split
  · rfl
  · exact Option.map_id'

/-- No branch is added. -/
theorem size_hold (a : Arena) (g : Nat → Cell) :
    (a.hold g).branches.size = a.branches.size :=
  Array.size_mapIdx

/-- Leaves that hold what they held. -/
theorem hold_cell (a : Arena) : a.hold a.cell = a := by
  refine ext_getElem? (fun j => ?_) rfl
  rw [getElem?_hold]
  split
  · unfold cell
    cases a.branches[j]? with
    | none => rfl
    | some b => rfl
  · rfl

theorem hold_congr (h : ∀ i ∈ a.leaves, g i = g' i) : a.hold g = a.hold g' := by
  refine ext_getElem? (fun j => ?_) rfl
  rw [getElem?_hold, getElem?_hold]
  split
  · next hj => rw [h j hj]
  · rfl

/-- What is put in last stays. -/
theorem hold_hold (a : Arena) (g g' : Nat → Cell) :
    (a.hold g).hold g' = a.hold g' := by
  refine ext_getElem? (fun j => ?_) rfl
  rw [getElem?_hold, getElem?_hold, getElem?_hold]
  show (if j ∈ a.leaves then _ else _) = _
  split
  · rw [Option.map_map]
    rfl
  · rfl

/-- **An arena that is ready for a line**: the leaves are the branches from
some position on. They have no children, and their parents lie before that. -/
structure Ready (a : Arena) (n : Nat) : Prop where
  leaves_eq : a.leaves = List.range' n (a.branches.size - n)
  le_size : n ≤ a.branches.size
  downward : a.Downward
  childless : ∀ i ∈ a.leaves, a.childrenOf i = []
  parent_lt : ∀ i ∈ a.leaves, ∀ up, a.branches[i]?.bind Branch.parent
    = some up → up < n

/-- At the beginning the root is ready. -/
theorem ready_root (input : Value) (locals : Bindings Value) :
    (root input locals).Ready 0 where
  leaves_eq := rfl
  le_size := Nat.zero_le _
  downward := downward_root input locals
  childless := by
    intro i hi
    obtain rfl := List.mem_singleton.1 hi
    rfl
  parent_lt := by
    intro i hi up hup
    obtain rfl := List.mem_singleton.1 hi
    cases hup

namespace Ready

/-- The leaves are the branches from some position on, -/
theorem mem_leaves_iff (h : a.Ready n) :
    i ∈ a.leaves ↔ n ≤ i ∧ i < a.branches.size := by
  have := h.le_size
  rw [h.leaves_eq, List.mem_range'_1]
  omega

/-- so each of them is a leaf once, -/
theorem nodup (h : a.Ready n) : a.leaves.Nodup := by
  rw [h.leaves_eq]
  exact List.nodup_range'

/-- and is there. -/
theorem lt_size (h : a.Ready n) : ∀ i ∈ a.leaves, i < a.branches.size :=
  fun _ hi => (h.mem_leaves_iff.1 hi).2

/-- What lies in front is no leaf. -/
theorem not_mem_of_lt (h : a.Ready n) (hi : i < n) : i ∉ a.leaves :=
  fun hmem => absurd (h.mem_leaves_iff.1 hmem).1 (by omega)

/-- A leaf is there. -/
theorem exists_branch (h : a.Ready n) (hi : i ∈ a.leaves) :
    ∃ b, a.branches[i]? = some b :=
  ⟨_, Array.getElem?_eq_getElem (h.lt_size i hi)⟩

/-- What can be seen from a leaf. -/
theorem scopeOf (h : a.Ready n) (hi : i ∈ a.leaves) :
    a.scopeOf i = .ok ((a.spot i).scope (a.cell i)) := by
  obtain ⟨b, hb⟩ := h.exists_branch hi
  rw [scopeOf_eq hb]
  unfold spot cell
  rw [hb]
  rfl

/-- **What the leaves hold is of no matter to where they stand.** -/
theorem spot_hold (h : a.Ready n) (g : Nat → Cell) (hi : i ∈ a.leaves) :
    (a.hold g).spot i = a.spot i := by
  have hget := getElem?_hold a g i
  rw [if_pos hi] at hget
  -- Everything that is seen from a leaf lies in front of all leaves.
  have hbefore : ∀ j < n,
      ((a.hold g).branches[j]?.map fun x => (x.locals, x.parent))
      = a.branches[j]?.map fun x => (x.locals, x.parent) := fun j hj => by
    rw [getElem?_hold, if_neg (h.not_mem_of_lt hj)]
  have hparent : (a.hold g).branches[i]?.bind Branch.parent
      = a.branches[i]?.bind Branch.parent := by
    rw [hget]
    cases a.branches[i]? <;> rfl
  unfold spot
  rw [above_congr hbefore hparent (h.parent_lt i hi), hget, Option.map_map]
  rfl

/-- A leaf holds what has been put into it. -/
theorem cell_hold (h : a.Ready n) (g : Nat → Cell) (hi : i ∈ a.leaves) :
    (a.hold g).cell i = g i := by
  obtain ⟨b, hb⟩ := h.exists_branch hi
  unfold cell
  rw [getElem?_hold, if_pos hi, hb]
  rfl

/-- No children are made or lost. -/
theorem childrenOf_hold (a : Arena) (g : Nat → Cell) (j : Nat) :
    (a.hold g).childrenOf j = a.childrenOf j := by
  unfold childrenOf
  rw [getElem?_hold]
  split
  · rw [Option.map_map]
    rfl
  · rfl

/-- It stays ready. -/
theorem hold (h : a.Ready n) (g : Nat → Cell) : (a.hold g).Ready n where
  leaves_eq := by
    rw [size_hold]
    exact h.leaves_eq
  le_size := by
    rw [size_hold]
    exact h.le_size
  downward := h.downward.of_subset fun j => by
    rw [childrenOf_hold]
    exact List.Subset.refl _
  childless i hi := by
    rw [childrenOf_hold]
    exact h.childless i hi
  parent_lt i hi up hup := by
    change i ∈ a.leaves at hi
    rw [getElem?_hold, if_pos hi] at hup
    refine h.parent_lt i hi up ?_
    cases hb : a.branches[i]? with
    | none =>
      rw [hb] at hup
      cases hup
    | some b =>
      rw [hb] at hup
      exact hup

end Ready

end Arena

/-! ## Doing something on each leaf

To do something on each leaf is to find out what every leaf holds afterwards,
and to put that in. If it succeeds on all of them the machine is the same but
for the leaves. Two things done one after the other are then done leaf by leaf
as well, because neither sees any leaf but its own. -/

/-- The same machine with something else in its leaves. -/
def Machine.hold (m : Machine) (g : Nat → Cell) : Machine :=
  { m with arena := m.arena.hold g }

namespace Machine

variable {m : Machine} {g g' : Nat → Cell}

theorem hold_cell (m : Machine) : m.hold m.arena.cell = m := by
  unfold hold
  rw [m.arena.hold_cell]

theorem hold_congr (h : ∀ i ∈ m.arena.leaves, g i = g' i) :
    m.hold g = m.hold g' := by
  unfold hold
  rw [Arena.hold_congr h]

theorem hold_hold (m : Machine) (g g' : Nat → Cell) :
    (m.hold g).hold g' = m.hold g' := by
  unfold hold
  rw [m.arena.hold_hold]

end Machine

/-- **Something is done on each leaf**, it succeeds on all of them, and nothing
else has changed. -/
def Each (F : Spot → Cell → Act σ Cell) (w : World σ) (m m' : Machine) : Prop :=
  ∃ g,
    (∀ i ∈ m.arena.leaves, (F (m.arena.spot i) (m.arena.cell i)).value w
      = .ok (g i)) ∧
    m' = m.hold g

section Each

variable {F G : Spot → Cell → Act σ Cell} {m m' : Machine} {n : Nat}

/-- The scopes are as they were. -/
theorem Each.scopes_eq (h : Each F w m m') : m'.scopes = m.scopes := by
  obtain ⟨g, -, rfl⟩ := h
  rfl

/-- The leaves are as ready as they were. -/
theorem Each.ready (h : Each F w m m') (hready : m.arena.Ready n) :
    m'.arena.Ready n := by
  obtain ⟨g, -, rfl⟩ := h
  exact hready.hold g

/-- Doing nothing. -/
theorem each_pure :
    Each (fun _ c => (pure c : Act σ Cell)) w m m' ↔ m' = m := by
  constructor
  · rintro ⟨g, hg, rfl⟩
    rw [Machine.hold_congr fun i hi => (Except.ok.inj (hg i hi)).symm,
      Machine.hold_cell]
  · rintro rfl
    exact ⟨m'.arena.cell, fun _ _ => rfl, m'.hold_cell.symm⟩

/-- **Doing one thing on all leaves and then another** is doing both on each. -/
theorem each_bind (hready : m.arena.Ready n)
    (hG : ∀ spot c, (G spot c).Steady) :
    Each (fun spot c => F spot c >>= G spot) w m m' ↔
      ∃ m₁, Each F w m m₁ ∧ Each G w m₁ m' := by
  constructor
  · rintro ⟨g, hg, rfl⟩
    have hsplit := fun i hi => (Act.value_bind_eq_ok_iff (hG _)).1 (hg i hi)
    choose! g₁ hfirst hsecond using hsplit
    refine ⟨m.hold g₁, ⟨g₁, hfirst, rfl⟩, g, fun i hi => ?_, ?_⟩
    -- The leaf stands where it stood, and holds what the first of the two has
    -- put there.
    · show (G ((m.arena.hold g₁).spot i) ((m.arena.hold g₁).cell i)).value w = _
      rw [hready.spot_hold g₁ hi, hready.cell_hold g₁ hi]
      exact hsecond i hi
    · exact (m.hold_hold g₁ g).symm
  · rintro ⟨_, ⟨g₁, hg₁, rfl⟩, g, hg, rfl⟩
    refine ⟨g, fun i hi =>
      (Act.value_bind_eq_ok_iff (hG _)).2 ⟨g₁ i, hg₁ i hi, ?_⟩, ?_⟩
    · have hi' := hg i hi
      change (G ((m.arena.hold g₁).spot i) ((m.arena.hold g₁).cell i)).value w
        = _ at hi'
      rwa [hready.spot_hold g₁ hi, hready.cell_hold g₁ hi] at hi'
    · exact m.hold_hold g₁ g

end Each

end StreamScript
