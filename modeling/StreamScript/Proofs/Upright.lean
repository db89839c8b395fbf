import StreamScript.Proofs.MissingBranches

/-!
# The arena between two lines

What lies in layers can be read in many ways, and this module reads them all
(`Machine.Upright`): positions are in range, parents lie in front, the leaves
are the children of the branches that the innermost scope was opened on, those
are the leaves of the scope around it, and the mark of a scope is where the
branches made for it and for the scopes within it begin.

Every machine of a run between two lines is so, be it the run of a program or
of a function (`Program.arena_stays_upright`). When a run is done no scope is
open, and only the root is left.
-/

namespace StreamScript

variable {σ : Type} {host : Host σ} {calls : Callables σ} {token : Option Nat}

namespace Layered

variable {a : Arena} {scopes inner outer : List OpenScope} {layer : List Nat}
  {size : Nat} {s t : OpenScope}

/-! ## Reading layers

Layers are defined from the root up, scope after scope. What is said of a scope
in the middle is read off by taking away the scopes within it (`of_append`);
what they have added lies behind. -/

/-- The layers below some scopes. What is taken away has been made later, so
there were no more branches then than there are now. -/
theorem of_append (h : Layered a (inner ++ scopes) layer size) :
    ∃ layer' size', Layered a scopes layer' size' ∧ size' ≤ size := by
  induction inner generalizing layer size with
  | nil => exact ⟨layer, size, h, Nat.le_refl _⟩
  | cons t inner ih =>
    obtain ⟨hbelow, hmark, -⟩ := of_cons h
    obtain ⟨layer', size', h', hle⟩ := ih hbelow
    exact ⟨layer', size', h', Nat.le_trans hle hmark⟩

/-- A scope was opened on the leaves of the scope around it. So a fold of the
inner scope leaves its results with the leaves of the outer one. -/
theorem parents_eq (h : Layered a (inner ++ s :: t :: outer) layer size) :
    s.parents = t.parents.flatMap a.childrenOf := by
  obtain ⟨_, _, h', -⟩ := of_append h
  obtain ⟨hbelow, -⟩ := h'.of_cons
  obtain ⟨-, -, -, hchildren, -⟩ := hbelow.of_cons
  exact hchildren.symm

/-- The outermost scope was opened on the root. -/
theorem parents_eq_root (h : Layered a (inner ++ [s]) layer size) :
    s.parents = [0] := by
  obtain ⟨_, _, h', -⟩ := of_append h
  obtain ⟨hbelow, -⟩ := h'.of_cons
  exact hbelow.of_nil.1

/-- **Behind the mark of a scope** lie the branches made for it and for the
scopes within it. The induction takes away the innermost scope: the branches
behind its mark are its own, and about those before it the statement is known
already. -/
theorem mark_le_iff (h : Layered a (inner ++ s :: outer) layer size) (j : Nat) :
    s.mark ≤ j ∧ j < size ↔ ∃ t ∈ s :: inner,
      j ∈ t.parents.flatMap a.childrenOf := by
  induction inner generalizing layer size with
  | nil =>
    simp only [List.mem_singleton, exists_eq_left]
    exact (mem_children_iff h).symm
  | cons t inner ih =>
    obtain ⟨hbelow, hmark, -⟩ := of_cons h
    have hle : s.mark ≤ t.mark :=
      (hbelow.le_of_mem (List.mem_append_right inner List.mem_cons_self)).1
    have htop : j ∈ t.parents.flatMap a.childrenOf ↔ t.mark ≤ j ∧ j < size :=
      mem_children_iff h
    have hrest := ih hbelow
    -- Either below the mark of the innermost scope, or behind it.
    have hsplit : s.mark ≤ j ∧ j < size ↔
        (s.mark ≤ j ∧ j < t.mark) ∨ (t.mark ≤ j ∧ j < size) := by omega
    rw [hsplit, hrest, ← htop]
    constructor
    · rintro (⟨u, hu, hj⟩ | hj)
      · obtain rfl | hu := List.mem_cons.1 hu
        · exact ⟨u, List.mem_cons_self, hj⟩
        · exact ⟨u, List.mem_cons_of_mem s (List.mem_cons_of_mem t hu), hj⟩
      · exact ⟨t, List.mem_cons_of_mem s List.mem_cons_self, hj⟩
    · rintro ⟨u, hu, hj⟩
      obtain rfl | hu := List.mem_cons.1 hu
      · exact .inl ⟨u, List.mem_cons_self, hj⟩
      · obtain rfl | hu := List.mem_cons.1 hu
        · exact .inr hj
        · exact .inl ⟨u, List.mem_cons_of_mem s hu, hj⟩

/-- **Every branch but the root has its parent in front of it.** Branches are
only added at the end, and each is added for a branch that is there. -/
theorem exists_parent_lt (h : Layered a scopes layer size) {j : Nat}
    (hj : j < size) (hne : j ≠ 0) :
    ∃ k up, a.seat? j = some (k, some up) ∧ up < j := by
  induction h with
  | root => omega
  | @scope s outer size below mark_le children fanned ih =>
    by_cases hlt : j < s.mark
    · exact ih hlt
    · have hlayered := Layered.scope below mark_le children fanned
      have hmem : j ∈ List.range' s.mark (size - s.mark) := by
        rw [List.mem_range'_1]
        omega
      obtain ⟨up, hup, k, hseat⟩ := hlayered.exists_parent hmem
      exact ⟨k, up, hseat,
        Nat.lt_of_lt_of_le (below.lt_size up hup) (Nat.le_of_not_lt hlt)⟩

/-- The children of the branches of every scope are in order. -/
theorem fanned (h : Layered a scopes layer size) (hs : s ∈ scopes) :
    ∀ i ∈ s.parents, a.Fanned i := by
  induction h with
  | root => cases hs
  | scope _ _ _ fanned ih =>
    obtain rfl | hs := List.mem_cons.1 hs
    · exact fanned
    · exact ih hs

end Layered

/-- **A machine as it is between two lines.** The fields are what moves rely on
when they look something up by its number, or cut the array off. -/
structure Machine.Upright (m : Machine) : Prop where
  /-- Leaves are there. -/
  leaf_lt : ∀ i ∈ m.arena.leaves, i < m.arena.branches.size
  /-- The branches that scopes were opened on are there. -/
  parents_lt : ∀ s ∈ m.scopes, ∀ i ∈ s.parents, i < m.arena.branches.size
  /-- Children are there. -/
  child_lt : ∀ (i : Nat) (b : Branch), m.arena.branches[i]? = some b →
    ∀ c ∈ b.children, c < m.arena.branches.size
  /-- The root has no parent. -/
  root : ∀ b, m.arena.branches[0]? = some b → b.parent = none
  /-- Every other branch has one, in front of it. -/
  parent : ∀ (i : Nat) (b : Branch), m.arena.branches[i]? = some b → i ≠ 0 →
    ∃ up < i, b.parent = some up
  /-- With no scope open the root is the only leaf. -/
  leaves_of_nil : m.scopes = [] → m.arena.leaves = [0]
  /-- Otherwise the leaves are the children of the branches of the innermost
  scope, in order. -/
  leaves_of_cons : ∀ s outer, m.scopes = s :: outer →
    m.arena.leaves = s.parents.flatMap m.arena.childrenOf
  /-- Children are numbered from 0. -/
  index : ∀ s ∈ m.scopes, ∀ i ∈ s.parents,
    (m.arena.childrenOf i).map (fun c => m.arena.branches[c]?.map Branch.index)
      = (List.range (m.arena.childrenOf i).length).map some
  /-- A scope was opened on the leaves of the scope around it, the outermost on
  the root. -/
  enclosed : ∀ inner s t outer, m.scopes = inner ++ s :: t :: outer →
    s.parents = t.parents.flatMap m.arena.childrenOf
  outermost : ∀ inner s, m.scopes = inner ++ [s] → s.parents = [0]
  /-- Behind the mark of a scope lie the branches made for it and for the
  scopes within it. -/
  mark : ∀ inner s outer, m.scopes = inner ++ s :: outer → ∀ j,
    s.mark ≤ j ∧ j < m.arena.branches.size ↔
      ∃ t ∈ s :: inner, j ∈ t.parents.flatMap m.arena.childrenOf
  /-- So cutting off behind the mark of the innermost scope drops what is
  folded, no more and no less. -/
  cut : ∀ s outer, m.scopes = s :: outer → s.mark ≤ m.arena.branches.size ∧
    List.range' s.mark (m.arena.branches.size - s.mark)
    = s.parents.flatMap m.arena.childrenOf
  /-- Leaves have no children. -/
  childless : ∀ i ∈ m.arena.leaves, m.arena.childrenOf i = []
  /-- Every position can be looked up, and its children with it. -/
  found : ∀ i < m.arena.branches.size,
    (∃ scope, m.arena.scopeOf i = .ok scope) ∧ ∃ yields,
    m.arena.yieldsOf i = .ok yields

/-- **A machine that is done**: no scope is open, and only the root is left. -/
structure Machine.AtRest (m : Machine) : Prop where
  scopes : m.scopes = []
  leaves : m.arena.leaves = [0]
  size : m.arena.branches.size = 1
  childless : ∀ (i : Nat) (b : Branch), m.arena.branches[i]? = some b →
    b.children = []

namespace Machine.Grown

variable {m : Machine}

/-- **What lies in layers is upright.** -/
theorem upright (h : m.Grown) : m.Upright := by
  have hl := h.layered
  have hseat : ∀ {i b}, m.arena.branches[i]? = some b →
      m.arena.seat? i = some b.seat :=
    fun hb => congrArg (Option.map Branch.seat) hb
  have hlt : ∀ {i b}, m.arena.branches[i]? = some b →
      i < m.arena.branches.size := fun hb =>
    (Array.getElem?_eq_some_iff.1 hb).1
  exact {
    leaf_lt := hl.lt_size
    parents_lt := fun s hs i hi =>
      Nat.lt_of_lt_of_le (hl.lt_mark hs i hi) (hl.le_of_mem hs).1
    child_lt := fun i b hb c hc => h.whole i c (by
      unfold Arena.childrenOf
      rw [hb]
      exact hc)
    root := fun b hb => by
      have hroot := h.root
      rw [hseat hb] at hroot
      exact hroot
    parent := fun i b hb hne => by
      obtain ⟨k, up, hup, hlt'⟩ := hl.exists_parent_lt (hlt hb) hne
      rw [hseat hb] at hup
      exact ⟨up, hlt', congrArg Prod.snd (Option.some.inj hup)⟩
    leaves_of_nil := fun hs => by
      rw [hs] at hl
      exact hl.of_nil.1
    leaves_of_cons := fun s outer hs => by
      rw [hs] at hl
      exact hl.of_cons.2.2.2.1.symm
    index := fun s hs i hi => by
      have hfanned :=
        congrArg (List.map (Option.map Prod.fst)) (hl.fanned hs i hi)
      rw [List.map_map, List.map_map] at hfanned
      refine Eq.trans (List.map_congr_left fun c _ => ?_) hfanned
      show _ = (m.arena.branches[c]?.map Branch.seat).map Prod.fst
      rw [Option.map_map]
      rfl
    enclosed := fun inner s t outer hs => by
      rw [hs] at hl
      exact hl.parents_eq
    outermost := fun inner s hs => by
      rw [hs] at hl
      exact hl.parents_eq_root
    mark := fun inner s outer hs j => by
      rw [hs] at hl
      exact hl.mark_le_iff j
    cut := fun s outer hs => by
      rw [hs] at hl
      obtain ⟨-, hmark, hlayer, hchildren, -⟩ := hl.of_cons
      exact ⟨hmark, hlayer.symm.trans hchildren.symm⟩
    childless := h.childless
    found := fun i hi => ⟨Arena.exists_scopeOf hi, h.whole.exists_yieldsOf hi⟩ }

/-- With no scope open only the root is left. There is but one layer, and the
root is alone in it. -/
theorem atRest (h : m.Grown) (hs : m.scopes = []) : m.AtRest := by
  have hl := h.layered
  rw [hs] at hl
  obtain ⟨hleaves, hsize⟩ := hl.of_nil
  refine ⟨hs, hleaves, hsize, fun i b hb => ?_⟩
  have hi : i < 1 := hsize ▸ (Array.getElem?_eq_some_iff.1 hb).1
  have hchildless := h.childless i (by
    rw [hleaves, Nat.lt_one_iff.1 hi]
    exact List.mem_singleton.2 rfl)
  unfold Arena.childrenOf at hchildless
  rw [hb] at hchildless
  exact hchildless

end Machine.Grown

namespace Drive

/-- **A run of lines that keeps its arena in order**: between any two lines and
after the last one, and when it is done. A branch that is not there is never
looked up. `between` speaks of the machine that a line finds, and `after` of
the one that it leaves; in the middle of a line, while scopes are folded,
nothing is said. -/
structure StaysUpright (host : Host σ) (calls : Callables σ)
    (token : Option Nat) (l : List (Placed Step)) (p : Progress) (w : World σ) :
    Prop where
  between : ∀ l' q v, Reaches host calls token l p w l' q v → q.machine.Upright
  after : ∀ x l' q v, Reaches host calls token l p w (x :: l') q v →
    x.content.isBlank = false →
    ∀ exits q' v', (take host calls x).exec q v = (.ok exits, q', v') →
      q'.machine.Upright
  done : ∀ q v, (lines host calls token l).exec p w = (.ok .done, q, v) →
    q.machine.AtRest
  found : ∀ reason, ((lines host calls token l).exec p w).1
    ≠ .error (.task reason)

variable {p q : Progress} {w v : World σ}

/-- A run that has closed all scopes is at rest. This is how a run ends, with
or without an exit. -/
theorem atRest_of_closeTo (h : p.machine.Grown)
    (hc : (closeTo host calls 0).exec p w = (.ok (), q, v)) :
    q.machine.AtRest := by
  refine (closeTo_grown h hc).atRest ?_
  rw [show q.machine.scopes = _ from exec_closeTo_scopes hc, Nat.sub_zero,
    List.drop_length]

/-- **Lines that begin on a root** keep the arena in order. The state that a
run begins with has grown from its root, every move keeps that, and what has
grown is upright. -/
theorem staysUpright_start (hc : calls.Find) (host : Host σ)
    (token : Option Nat) (l : List (Placed Step)) (input : Value)
    (locals : Bindings Value) (w : World σ) :
    StaysUpright host calls token l (.start input locals) w where
  between l' q v h := (h.grown (Machine.grown_start input locals)).upright
  after x l' q v h hx exits q' v' ht :=
    (take_grown hx (h.grown (Machine.grown_start input locals)) ht).upright
  done q v h := by
    obtain ⟨l', p', w', hreaches, hends⟩ :=
      exists_reaches_ends host calls token l (.start input locals) w
    have hgrown := hreaches.grown (Machine.grown_start input locals)
    rw [h] at hends
    generalize ho : (Except.ok Ending.done, q, v) = o at hends
    cases hends with
    | @finished _ _ r _ _ hclose =>
      cases r <;> cases ho
      exact atRest_of_closeTo hgrown hclose
    | failed => cases ho
    | @exited _ _ _ _ _ _ r _ _ hs ht hclose =>
      cases r <;> cases ho
      exact atRest_of_closeTo (take_grown hs hgrown ht) hclose
    | superseded => cases ho
  found reason h := by
    cases lines_finds hc host token l (Machine.grown_start input locals) w _ h

end Drive

/-- **The arena of every run is in order**, be it the run of a program or of
one of its functions. A function is run on an arena of its own, so the second
half is about another machine than the first; what is proved of lines that
begin on a root serves for both. That a task never fails for a missing branch
is said of the result of the program as well, since that is where it would be
seen. -/
theorem Program.arena_stays_upright (p : Program) (host : Host σ)
    (globals : Bindings Value) :
    (∀ (input : Value) (w : World σ),
      Drive.StaysUpright host (p.callables host globals)
        (some (w.generation + 1)) p.steps (.start input globals) w.begin) ∧
    (∀ (input : Value) (w : World σ) (r : RunResult),
      ((p.run host globals input).run w).1 = some r →
        ∀ reason, r.error ≠ some (.task reason)) ∧
    ∀ d ∈ p.functions,
      ∀ (allowance : Nat) (target : Value) (arguments : List Value) (w : World σ),
      Drive.StaysUpright host ⟨p.isNullary, p.call host globals allowance⟩
        none d.body (.start target (d.locals globals arguments)) w := by
  refine ⟨fun input w => ?_,
    fun input w r hr => p.finds_run host globals input w hr, ?_⟩
  · exact Drive.staysUpright_start (p.find_call host globals callLimit) host
      _ p.steps input globals w.begin
  · intro d _ allowance target arguments w
    exact Drive.staysUpright_start (p.find_call host globals allowance) host
      none d.body target (d.locals globals arguments) w

end StreamScript
