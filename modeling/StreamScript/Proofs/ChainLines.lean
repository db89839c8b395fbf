import StreamScript.Proofs.Chains
import StreamScript.Proofs.Equivalence
import StreamScript.Proofs.Layers

/-!
# A chain is its parts on lines of their own

A line is executed on all leaves before the next, and a chain goes through all
its parts on one leaf before the next. Both come to the same. The first part
alone changes the streams of the leaves and nothing else, and the chain behind
it finds on each leaf what the first part has left there
(`Drive.step_result_chain`); where the last part opens a scope, the branches of
its elements are the same, since the streams below them are overwritten in any
case.

So a chain in a list of lines may be replaced by its parts, all in its place
(`Drive.lines_result_unchained`), as often as one likes.
-/

namespace StreamScript

variable {σ : Type} {host : Host σ} {calls : Callables σ} {w : World σ}

/-! ## Streams that are overwritten

Between the parts of a chain on lines of their own, the streams of the leaves
hold what the first part has left. When the second part settles a leaf, this is
overwritten. Two arenas that differ only in what will be overwritten
(`Arena.SettlesAs`) become the same leaf by leaf: with every leaf that is
settled, there is one less on which they may differ. -/

namespace Arena

variable {a b : Arena} {ids : List Nat} {i : Nat}

/-- **Arenas that become the same** when some branches are settled, whatever is
done there. They may differ in the streams of these branches and in nothing
else that a line does not overwrite. -/
structure SettlesAs (ids : List Nat) (a b : Arena) : Prop where
  leaves_eq : b.leaves = a.leaves
  size_eq : b.branches.size = a.branches.size
  kept : ∀ j, j ∉ ids → b.branches[j]? = a.branches[j]?
  settled : ∀ j ∈ ids, ∀ outcome children,
    b.branches[j]?.map (Branch.settle outcome children)
      = a.branches[j]?.map (Branch.settle outcome children)

/-- One of them is settled. There the two become equal, and on the others they
may still differ. -/
theorem SettlesAs.settle (h : SettlesAs (i :: ids) a b)
    (hi : i < a.branches.size) (outcome : Outcome) :
    SettlesAs ids (a.settle i outcome) (b.settle i outcome) where
  leaves_eq := h.leaves_eq
  size_eq := by rw [size_settle, size_settle, h.size_eq]
  kept j hj := by
    rw [getElem?_settle hi, getElem?_settle (h.size_eq ▸ hi), h.size_eq]
    by_cases hji : j = i
    · subst hji
      rw [if_pos rfl, if_pos rfl]
      exact h.settled j List.mem_cons_self _ _
    · rw [if_neg hji, if_neg hji, h.kept j (by simp [hji, hj])]
  settled j hj o children := by
    rw [getElem?_settle hi, getElem?_settle (h.size_eq ▸ hi), h.size_eq]
    by_cases hji : j = i
    · subst hji
      rw [if_pos rfl, if_pos rfl, h.settled j List.mem_cons_self]
    · rw [if_neg hji, if_neg hji]
      split
      · exact h.settled j (List.mem_cons_of_mem i hj) o children
      · rfl

/-- **What a line has done on all of them** puts the same into place. The
stream of each is overwritten, and the locals that a line adds it adds to the
same ones. -/
theorem SettlesAs.commit {outcomes : List (Nat × Outcome)}
    (h : SettlesAs (outcomes.map Prod.fst) a b)
    (hlt : ∀ o ∈ outcomes, o.1 < a.branches.size) :
    b.commit outcomes = a.commit outcomes := by
  induction outcomes generalizing a b with
  | nil => exact ext_getElem? (fun j => h.kept j List.not_mem_nil) h.leaves_eq
  | cons o outcomes ih =>
    obtain ⟨hi, hrest⟩ := List.forall_mem_cons.1 hlt
    refine ih (SettlesAs.settle h hi o.2) fun o' ho' => ?_
    rw [size_settle]
    exact Nat.lt_of_lt_of_le (hrest o' ho') (Nat.le_add_right _ _)

/-- Streams are overwritten when the leaves are settled. -/
theorem settlesAs_hold {g : Nat → Cell}
    (h : ∀ i ∈ a.leaves, (g i).locals = (a.cell i).locals) :
    SettlesAs a.leaves a (a.hold g) where
  leaves_eq := rfl
  size_eq := size_hold a g
  kept j hj := by rw [getElem?_hold, if_neg hj]
  settled j hj outcome children := by
    have hlocals := h j hj
    unfold cell at hlocals
    rw [getElem?_hold, if_pos hj, Option.map_map]
    cases hb : a.branches[j]? with
    | none => rfl
    | some x =>
      rw [hb] at hlocals
      change (g j).locals = x.locals at hlocals
      simp only [Option.map_some, Function.comp_apply, Branch.settle,
        Branch.hold, hlocals]

end Arena

/-- **A line that comes behind one that has only changed streams** leaves the
same. This is the step from a chain to its parts: after the first part the
streams are those the chain has in between, and the rest of it overwrites them.
-/
theorem Machine.after_hold {m : Machine} {n : Nat} (hready : m.arena.Ready n)
    {g : Nat → Cell} (hg : ∀ i ∈ m.arena.leaves,
      (g i).locals = (m.arena.cell i).locals) (line : Nat)
    {action action' : Action} (hopened : action'.opened? = action.opened?)
    (outcomes : Nat → Outcome) :
    (m.hold g).after line action' (m.arena.leaves.map outcomes) =
      m.after line action (m.arena.leaves.map outcomes) := by
  have hcommit :
      (m.arena.hold g).commit (m.arena.leaves.map fun i => (i, outcomes i))
      = m.arena.commit (m.arena.leaves.map fun i => (i, outcomes i)) := by
    refine Arena.SettlesAs.commit ?_ fun o ho => ?_
    · rw [List.map_map]
      exact (List.map_id m.arena.leaves).symm ▸ Arena.settlesAs_hold hg
    · obtain ⟨i, hi, rfl⟩ := List.mem_map.1 ho
      exact hready.lt_size i hi
  have hzip : (m.hold g).arena.leaves.zip (m.arena.leaves.map outcomes) =
      m.arena.leaves.map fun i => (i, outcomes i) := zip_map_self _ _
  have hsize : (m.hold g).arena.branches.size = m.arena.branches.size :=
    Arena.size_hold _ _
  unfold after
  rw [hopened, hzip, zip_map_self, hsize, show (m.hold g).arena = m.arena.hold g
    from rfl, hcommit]
  rfl

/-! ## The parts of a line

Only chains have several parts. The parts of a line that is none are the line
itself, so that every line can be replaced by its parts. -/

/-- The parts of a step, of which only a chain has several. -/
def Step.parts : Step → List Step
  | .act action => action.parts.map .act
  | s => [s]

/-- **The parts of a line**, each on a line of its own in the same place. They
have the depth of the line, so no scope is closed between them, and its number,
so that an error blames the same line. -/
def Placed.parts (x : Placed Step) : List (Placed Step) :=
  x.content.parts.map fun s => x.map fun _ => s

theorem Placed.parts_of_chain {x : Placed Step} {head : Expr}
    {middle : List Expr} {last : ChainEnd}
    (hx : x.content = .act (.chain head middle last)) :
    x.parts = (x.map fun _ => .act (.eval head)) ::
      parts (x.map fun _ => .act (Action.behind middle last)) := by
  unfold parts
  rw [hx]
  exact congrArg (fun actions => List.map _ (List.map _ actions))
    (Action.parts_chain head middle last)

/-! ## A chain on one leaf and on all

On one leaf the chain and its parts have been compared already. On all leaves
the order is another one: the parts go over all leaves one after the other, and
a chain does all of its parts on a leaf before it comes to the next. With
steady calls the outcome of a leaf does not depend on when it is computed. So
the results on the leaves are the same functions of the leaf, and what is put
into place is the same. -/

namespace Action

variable {head : Expr} {scope : Scope} {outcome : Outcome}

/-- What an expression on a line of its own leaves. -/
theorem value_eval_eq_ok_iff :
    ((eval head).execute calls scope).value w = .ok outcome ↔
      ∃ v, (head.eval calls scope).value w = .ok v ∧
        outcome = { stream := v } := by
  rw [execute, Act.value_bind_eq_ok_iff fun _ => Act.steady_closed.pure _]
  exact exists_congr fun v => and_congr_right fun _ =>
    ⟨fun h => (Except.ok.inj h).symm, fun h => congrArg Except.ok h.symm⟩

/-- What a chain leaves is what the rest of it leaves on the value of its first
part. -/
theorem value_chain_eq_ok_iff (hc : calls.Steady) {middle : List Expr}
    {last : ChainEnd} :
    ((chain head middle last).execute calls scope).value w = .ok outcome ↔
      ∃ v, (head.eval calls scope).value w = .ok v ∧
        ((behind middle last).execute calls (scope.retarget v)).value w
        = .ok outcome := by
  rw [execute_chain, Act.value_bind_eq_ok_iff fun _ =>
    execute_related Act.steady_closed.ordinarily hc _ _]

end Action

namespace Drive

variable {m m' : Machine} {n : Nat} {x : Placed Step}
  {l l' : List (Placed Step)} {head : Expr} {middle : List Expr}
  {last : ChainEnd}

/-- **A chain on all leaves** is its first part on all leaves, and then what is
behind it. Both sides succeed if every leaf has a value of the first part and
an outcome of what is behind it. In between the leaves hold the values. -/
theorem step_result_chain (hc : calls.Steady) (hready : m.arena.Ready n)
    (hx : x.content = .act (.chain head middle last)) {exits : Bool} :
    (step host calls x).result w m = .ok (exits, m') ↔
      ∃ m₁, (step host calls (x.map fun _ => .act (.eval head))).result w m
        = .ok (false, m₁) ∧
        (step host calls
          (x.map fun _ => .act (Action.behind middle last))).result w m₁
          = .ok (exits, m') := by
  have hhead : ∀ {m₁},
        (step host calls (x.map fun _ => .act (.eval head))).result w m
        = .ok (false, m₁) ↔
      ∃ v : Nat → Value, (∀ i ∈ m.arena.leaves, (head.eval calls
          ((m.arena.spot i).scope (m.arena.cell i))).value w = .ok (v i)) ∧
        m₁ = m.hold fun i => { m.arena.cell i with stream := v i } := by
    intro m₁
    rw [step_result_of_plain hc hready rfl rfl]
    constructor
    · rintro ⟨outcomes, hexecuted, -, rfl⟩
      have hsplit := fun i hi => Action.value_eval_eq_ok_iff.1 (hexecuted i hi)
      choose! v hv hstream using hsplit
      refine ⟨v, hv, Machine.hold_congr fun i hi => ?_⟩
      exact congrArg (m.arena.cell i).settle (hstream i hi)
    · rintro ⟨v, hv, rfl⟩
      have hexecuted :=
        fun i hi => Action.value_eval_eq_ok_iff.2 ⟨v i, hv i hi, rfl⟩
      have hne : Action.eval head ≠ .exit := nofun
      exact ⟨_, hexecuted, (any_exits_map_eq_false hne hexecuted).symm, rfl⟩
  -- Behind the first part a leaf stands where it stood, and its stream is what
  -- that has left.
  have hscope : ∀ (v : Nat → Value), ∀ i ∈ m.arena.leaves,
      let m₁ := m.hold fun i => { m.arena.cell i with stream := v i }
      (m₁.arena.spot i).scope (m₁.arena.cell i) =
        ((m.arena.spot i).scope (m.arena.cell i)).retarget (v i) :=
    fun v i hi =>
      congrArg₂ Spot.scope (hready.spot_hold _ hi) (hready.cell_hold _ hi)
  have hafter := fun (v : Nat → Value) (outcomes : Nat → Outcome) =>
    Machine.after_hold hready
      (g := fun i => { m.arena.cell i with stream := v i }) (fun _ _ => rfl)
      x.line (Action.opened?_chain head middle last).symm outcomes
  simp only [step_result hc hready hx, hhead]
  constructor
  · rintro ⟨outcomes, hexecuted, rfl, rfl⟩
    have hsplit :=
      fun i hi => (Action.value_chain_eq_ok_iff hc).1 (hexecuted i hi)
    choose! v hv hbehind using hsplit
    refine ⟨_, ⟨v, hv, rfl⟩, (step_result hc (hready.hold _) rfl).2
      ⟨outcomes, fun i hi => ?_, rfl, (hafter v outcomes).symm⟩⟩
    rw [hscope v i hi]
    exact hbehind i hi
  · rintro ⟨_, ⟨v, hv, rfl⟩, hbehind⟩
    obtain ⟨outcomes, hexecuted, rfl, rfl⟩ :=
      (step_result hc (hready.hold _) rfl).1 hbehind
    refine ⟨outcomes,
      fun i hi => (Action.value_chain_eq_ok_iff hc).2 ⟨v i, hv i hi, ?_⟩, rfl,
      hafter v outcomes⟩
    have hi' := hexecuted i hi
    rwa [hscope v i hi] at hi'

/-- **Taking a chain** is taking its first part, and then what is behind it.
Scopes are closed before the first part, and before what is behind it there is
nothing left to close, as both are at the depth of the chain. -/
theorem take_result_chain (hc : calls.Steady) (hm : m.Grown)
    (hx : x.content = .act (.chain head middle last)) {exits : Bool} :
    (take host calls x).result w m = .ok (exits, m') ↔
      ∃ m₁, (take host calls (x.map fun _ => .act (.eval head))).result w m
        = .ok (false, m₁) ∧
        (take host calls
          (x.map fun _ => .act (Action.behind middle last))).result w m₁
          = .ok (exits, m') := by
  have hready : ∀ {m₀}, (closeTo host calls x.depth).result w m = .ok ((), m₀) →
      ∃ n, m₀.arena.Ready n := by
    intro m₀ hclose
    obtain ⟨line, w', hexec⟩ := result_eq_ok_iff.1 hclose
    exact (closeTo_grown (p := { machine := m }) hm hexec).ready
  -- The first part opens no scope, so there is nothing to be closed before the
  -- rest.
  have hnothing : ∀ {m₀ m₁}, (closeTo host calls x.depth).result w m
      = .ok ((), m₀) →
      (step host calls (x.map fun _ => .act (.eval head))).result w m₀
      = .ok (false, m₁) →
      (closeTo host calls x.depth).result w m₁ = .ok ((), m₁) := by
    intro m₀ m₁ hclose hstep
    obtain ⟨n, hready⟩ := hready hclose
    refine closeTo_result_of_le ?_ w
    obtain ⟨outcomes, -, -, rfl⟩ :=
      (step_result_of_plain hc hready rfl rfl).1 hstep
    show m₀.scopes.length ≤ x.depth
    rw [closeTo_result_scopes hclose, List.length_drop]
    omega
  simp only [take_result hc]
  constructor
  · rintro ⟨m₀, hclose, hstep⟩
    obtain ⟨n, hready⟩ := hready hclose
    obtain ⟨m₁, hfirst, hrest⟩ := (step_result_chain hc hready hx).1 hstep
    exact ⟨m₁, ⟨m₀, hclose, hfirst⟩, m₁, hnothing hclose hfirst, hrest⟩
  · rintro ⟨m₁, ⟨m₀, hclose, hfirst⟩, m₂, hagain, hrest⟩
    obtain ⟨n, hready⟩ := hready hclose
    have hsame := (hnothing hclose hfirst).symm.trans hagain
    obtain ⟨-, rfl⟩ := Prod.mk.inj (Except.ok.inj hsame)
    exact ⟨m₀, hclose, (step_result_chain hc hready hx).2 ⟨m₁, hfirst, hrest⟩⟩

/-- What a taken line leaves is in layers, if it was before. -/
theorem take_result_grown (hx : x.content.isBlank = false) (hm : m.Grown)
    {exits : Bool} (h : (take host calls x).result w m = .ok (exits, m')) :
    m'.Grown := by
  obtain ⟨line, w', hexec⟩ := result_eq_ok_iff.1 h
  exact take_grown (p := { machine := m }) hx hm hexec

/-- **Lines that come to the same** behind one more. The machine behind the
line has its branches in layers again, and that is the form in which both
hypotheses are used. -/
theorem lines_result_cons_congr (hc : calls.Steady) (hm : m.Grown)
    (x : Placed Step) {e : Ending} (h : ∀ {m₁ : Machine}, m₁.Grown →
      ((lines host calls none l).result w m₁ = .ok (e, m') ↔
        (lines host calls none l').result w m₁ = .ok (e, m'))) :
    (lines host calls none (x :: l)).result w m = .ok (e, m') ↔
      (lines host calls none (x :: l')).result w m = .ok (e, m') := by
  cases hx : x.content.isBlank with
  | true => rw [lines_blank hx, lines_blank hx, h hm]
  | false =>
    rw [lines_result_cons hc hx, lines_result_cons hc hx]
    refine exists_congr fun exits => exists_congr fun m₁ =>
      and_congr_right fun htake => ?_
    cases exits with
    | true => exact Iff.rfl
    | false => exact h (take_result_grown hx hm htake)

/-- **A chain is its first part, and a line with what is behind it.** What the
first part comes to on each leaf is put into the stream, and the line behind it
finds it there. -/
theorem lines_result_chain (hc : calls.Steady) (hm : m.Grown)
    (hx : x.content = .act (.chain head middle last)) (l : List (Placed Step))
    {e : Ending} :
    (lines host calls none (x :: l)).result w m = .ok (e, m') ↔
      (lines host calls none ((x.map fun _ => .act (.eval head)) ::
        (x.map fun _ => .act (Action.behind middle last)) :: l)).result w m
        = .ok (e, m') := by
  have hx' : x.content.isBlank = false := by
    rw [hx]
    rfl
  have hhead : (x.map fun _ => Step.act (.eval head)).content ≠ .act .exit :=
    nofun
  simp only [lines_result_cons hc hx',
    lines_result_cons hc (x := x.map fun _ => .act _) rfl,
    take_result_chain hc hm hx]
  constructor
  · rintro ⟨exits, m₂, ⟨m₁, hfirst, hbehind⟩, hrest⟩
    exact ⟨false, m₁, hfirst, exits, m₂, hbehind, hrest⟩
  · rintro ⟨exits', m₁, hfirst, hbehind⟩
    obtain rfl : exits' = false := take_result_exits hc rfl hhead hfirst
    obtain ⟨exits, m₂, hbehind, hrest⟩ := hbehind
    exact ⟨exits, m₂, ⟨m₁, hfirst, hbehind⟩, hrest⟩

/-- **A line is its parts, each on a line of its own.** A chain has one part
less each time its first is taken off. It is by induction on the parts in the
middle, with one application of the theorem above for each. -/
theorem lines_result_parts (hc : calls.Steady) (hm : m.Grown) (x : Placed Step)
    (l : List (Placed Step)) {e : Ending} :
    (lines host calls none (x :: l)).result w m = .ok (e, m') ↔
      (lines host calls none (x.parts ++ l)).result w m = .ok (e, m') := by
  obtain ⟨_ | action | error, tab, depth, line⟩ := x
  · exact Iff.rfl
  · cases action with
    | chain head middle last =>
      induction middle generalizing head m with
      | nil =>
        rw [lines_result_chain hc hm rfl, Placed.parts_of_chain rfl]
        cases last <;> exact Iff.rfl
      | cons e' middle ih =>
        rw [lines_result_chain hc hm rfl, Placed.parts_of_chain rfl]
        exact lines_result_cons_congr hc hm _ fun hm₁ => ih hm₁ e'
    | _ => exact Iff.rfl
  · exact Iff.rfl

end Drive

/-! ## Chains taken apart in a list of lines

A list may hold chains anywhere, in blocks and behind them, and each may be
taken apart or not. Going along the list, every line is passed on both sides,
or a chain on one side and its parts on the other. -/

/-- **Lines with some chains taken apart.** Empty lines may come and go with
them. A function leaves empty lines in the place of its body, and a body with
chains taken apart has more lines. -/
inductive Unchained : List (Placed Step) → List (Placed Step) → Prop
  | nil : Unchained [] []
  | passLeft {l l' : List (Placed Step)} {x : Placed Step}
      (hx : x.content.isBlank = true) (rest : Unchained l l') :
      Unchained (x :: l) l'
  | passRight {l l' : List (Placed Step)} {x : Placed Step}
      (hx : x.content.isBlank = true) (rest : Unchained l l') :
      Unchained l (x :: l')
  /-- A line that is left as it is. -/
  | keep {l l' : List (Placed Step)} (x : Placed Step) (rest : Unchained l l') :
      Unchained (x :: l) (x :: l')
  /-- A line that its parts stand for. -/
  | parts {l l' : List (Placed Step)} (x : Placed Step)
      (rest : Unchained l l') :
      Unchained (x :: l) (x.parts ++ l')

namespace Drive

/-- **Taking chains apart changes nothing.** The induction is on the way the
lines have been taken apart, and the machine is generalized, as a line in front
changes it. -/
theorem lines_result_unchained (hc : calls.Steady) {l l' : List (Placed Step)}
    (h : Unchained l l') {m m' : Machine} (hm : m.Grown) {e : Ending} :
    (lines host calls none l).result w m = .ok (e, m') ↔
      (lines host calls none l').result w m = .ok (e, m') := by
  induction h generalizing m with
  | nil => exact Iff.rfl
  | passLeft hx _ ih => rw [lines_blank hx, ih hm]
  | passRight hx _ ih => rw [lines_blank hx, ih hm]
  | keep x _ ih => exact lines_result_cons_congr hc hm x fun hm₁ => ih hm₁
  | @parts _ l' x _ ih =>
    rw [lines_result_cons_congr hc hm x fun hm₁ => ih hm₁,
      lines_result_parts hc hm x l']

end Drive

end StreamScript
