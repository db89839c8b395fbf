import Mathlib.Tactic.SplitIfs
import StreamScript.Proofs.Branches
import StreamScript.Run.Program

/-!
# What all values have in common

A property that every value of a run has is a property that nothing breaks
which takes values apart or puts them together: the operators, the built-in
functions, and the scopes on their way in and on their way back (`Keeps`). The
branches of a run then hold only such values, whatever is done to them
(`Arena.Holds`).
-/

namespace StreamScript

variable {α β : Type}

/-! ## Values

The values of a run are those that can be got at: what an expression sees, what
a branch holds, and what a line makes on a branch. A task is given some of them
and makes others, and a property of all values is a property of these. -/

/-- The values in sight of an expression. -/
def Scope.values (s : Scope) : List Value :=
  s.stream :: s.vars.flatMap fun bindings => bindings.map Prod.snd

/-- The values of a branch: its stream, its origin and its locals. -/
def Branch.values (b : Branch) : List Value :=
  b.stream :: b.origin :: b.locals.map Prod.snd

/-- The values of all branches. -/
def Arena.values (a : Arena) : List Value :=
  a.branches.toList.flatMap Branch.values

/-- The values that a line makes on a branch. -/
def Outcome.values (o : Outcome) : List Value :=
  o.stream :: (o.bind.toList.map Prod.snd ++ o.elements.getD [])

/-! ## What values have in common

An operation may fail, and of a failure nothing is asked: `Gives` is about the
value, if there is one. It goes along with how operations are put together,
just as `FailsOnly` does for their errors.

`Keeps` lists what a property has to survive. There is a field for every way in
which a run makes a value: literals, operators, the elements of a scope and
what they are folded into, and built-in functions. A property with these fields
need not be looked at again. -/

/-- **A result that has a property**, if it is one. -/
def Gives (P : α → Prop) (x : Except RunError α) : Prop :=
  ∀ a, x = .ok a → P a

namespace Gives

variable {P : α → Prop} {Q : β → Prop}

/-- A success gives a value with the property, -/
theorem ok {a : α} (h : P a) : Gives P (.ok a) := by
  rintro _ ⟨⟩
  exact h

/-- and an error gives none. -/
theorem error (e : RunError) : Gives P (.error e) :=
  nofun

/-- What is done with a value may rely on what the value has. -/
theorem bind {x : Except RunError α} {f : α → Except RunError β}
    (hx : Gives P x) (hf : ∀ a, P a → Gives Q (f a)) : Gives Q (x >>= f) := by
  cases x with
  | error e => exact error e
  | ok a => exact hf a (hx a rfl)

/-- Of some results nothing need be known. -/
theorem after (x : Except RunError α) {f : α → Except RunError β}
    (hf : ∀ a, Gives Q (f a)) :
    Gives Q (x >>= f) := by
  cases x with
  | error e => exact error e
  | ok a => exact hf a

theorem map {x : Except RunError α} {f : α → β} (hx : Gives P x)
    (hf : ∀ a, P a → Q (f a)) :
    Gives Q (x.map f) := by
  cases x with
  | error e => exact error e
  | ok a => exact ok (hf a (hx a rfl))

theorem mapM {f : α → Except RunError β} {l : List α}
    (h : ∀ a ∈ l, Gives Q (f a)) :
    Gives (fun bs => ∀ b ∈ bs, Q b) (l.mapM f) := by
  induction l with
  | nil => exact ok nofun
  | cons a l ih =>
    obtain ⟨ha, hl⟩ := List.forall_mem_cons.1 h
    rw [List.mapM_cons]
    exact ha.bind fun b hb => (ih hl).bind fun bs hbs =>
      ok (List.forall_mem_cons.2 ⟨hb, hbs⟩)

/-- What is carried along has the property at every element, if one more
element keeps it. -/
theorem foldlM {f : β → α → Except RunError β} {l : List α}
    (h : ∀ b, Q b → ∀ a ∈ l, Gives Q (f b a)) {b : β} (hb : Q b) :
    Gives Q (l.foldlM f b) := by
  induction l generalizing b with
  | nil => exact ok hb
  | cons a l ih =>
    rw [List.foldlM_cons]
    exact (h b hb a List.mem_cons_self).bind fun b hb =>
      ih (fun b hb a ha => h b hb a (List.mem_cons_of_mem _ ha)) hb

end Gives

/-- **A property of values that everything keeps** that takes values apart or
puts them together. -/
structure Keeps (Good : Value → Prop) : Prop where
  text : ∀ s, Good (.text s)
  number : ∀ x, Good (.number x)
  truth : ∀ b, Good (.truth b)
  array : ∀ {items}, (∀ v ∈ items, Good v) → Good (.array items)
  unary : ∀ {op v}, Good v → Gives Good (Expr.applyUnary op v)
  binary : ∀ {op l r}, Good l → Good r → Gives Good (Expr.applyBinary op l r)
  elements : ∀ {kind : ScopeKind} {v}, Good v →
    Gives (fun vs => ∀ x ∈ vs, Good x) (kind.elements v)
  fold : ∀ {kind : ScopeKind} {yields},
    (∀ y ∈ yields, Good y.result ∧ Good y.origin) →
    Gives Good (kind.fold yields)
  apply : ∀ {b : Builtin} {target arguments}, Good target →
    (∀ a ∈ arguments, Good a) →
    Gives Good (b.apply target arguments)

/-- An arena whose values all have a property. -/
def Arena.Holds (Good : Value → Prop) (a : Arena) : Prop :=
  ∀ v ∈ a.values, Good v

/-! ## Arenas

An arena changes in a few ways: a line settles its leaves, branches come and
go, and a fold is received. Each of them puts in its place what it was given,
so an arena whose values have the property has it afterwards, if the new values
do. -/

namespace Bindings

variable {Good : α → Prop}

/-- What names are bound to after one more is bound. -/
theorem forall_mem_set {name : String} {v : α} (hv : Good v) {b : Bindings α}
    (h : ∀ l ∈ b, Good l.2) : ∀ l ∈ b.set name v, Good l.2 := by
  induction b with
  | nil => exact List.forall_mem_singleton.2 hv
  | cons entry b ih =>
    obtain ⟨hentry, hb⟩ := List.forall_mem_cons.1 h
    unfold set
    split
    · exact List.forall_mem_cons.2 ⟨hv, hb⟩
    · exact List.forall_mem_cons.2 ⟨hentry, ih hb⟩

/-- What names are bound to after several more are bound. -/
theorem forall_mem_setAll {more : List (String × α)}
    (hmore : ∀ l ∈ more, Good l.2) {b : Bindings α} (h : ∀ l ∈ b, Good l.2) :
    ∀ l ∈ b.setAll more, Good l.2 := by
  induction more generalizing b with
  | nil => exact h
  | cons entry more ih =>
    obtain ⟨hentry, hmore⟩ := List.forall_mem_cons.1 hmore
    exact ih hmore (forall_mem_set hentry h)

end Bindings

namespace Arena

variable {Good : Value → Prop}

/-- What the branches of elements hold. -/
theorem forall_mem_branchesOf {parent : Nat} {elements : List Value}
    (h : ∀ v ∈ elements, Good v) :
    ∀ b ∈ branchesOf parent elements, ∀ v ∈ b.values, Good v := by
  intro b hb v hv
  obtain ⟨⟨element, index⟩, hmem, rfl⟩ := List.mem_map.1 hb
  simp only [Branch.values, List.map_nil, List.mem_cons, List.not_mem_nil,
    or_false, or_self] at hv
  exact hv ▸ h element (List.fst_mem_of_mem_zipIdx hmem)

/-- All values have the property if those of every branch do. -/
theorem holds_iff {a : Arena} :
    a.Holds Good ↔ ∀ (i : Nat) b, a.branches[i]? = some b → ∀ v ∈ b.values,
      Good v := by
  unfold Holds values
  rw [List.forall_mem_flatMap]
  constructor
  · intro h i b hb
    exact h b (Array.mem_toList_iff.2 (Array.mem_of_getElem? hb))
  · intro h b hb
    obtain ⟨i, hi⟩ := Array.getElem?_of_mem (Array.mem_toList_iff.1 hb)
    exact h i b hi

/-- At the beginning there are the input and the globals. -/
theorem holds_root {input : Value} {locals : Bindings Value}
    (hinput : Good input) (hlocals : ∀ l ∈ locals, Good l.2) :
    (Arena.root input locals).Holds Good := by
  intro v hv
  simp only [values, root, List.flatMap_cons, List.flatMap_nil, List.append_nil,
    Branch.values, List.mem_cons, List.mem_map] at hv
  obtain rfl | rfl | ⟨l, hl, rfl⟩ := hv
  · exact hinput
  · exact hinput
  · exact hlocals l hl

namespace Holds

variable {a : Arena}

/-- What the root holds in the end. -/
theorem output (h : a.Holds Good) (hG : Keeps Good) : Good a.output := by
  unfold Arena.output
  cases hb : a.branches[0]? with
  | none => exact hG.text ""
  | some b => exact holds_iff.1 h 0 b hb b.stream List.mem_cons_self

/-- One branch is changed. -/
theorem modify (h : a.Holds Good) (id : Nat) {f : Branch → Branch}
    (hf : ∀ b, (∀ v ∈ b.values, Good v) → ∀ v ∈ (f b).values, Good v) :
    (a.modify id f).Holds Good := by
  refine holds_iff.2 fun i b hb => ?_
  rw [getElem?_modify] at hb
  split at hb
  · obtain ⟨b₀, hb₀, rfl⟩ := Option.map_eq_some_iff.1 hb
    exact hf b₀ (holds_iff.1 h i b₀ hb₀)
  · exact holds_iff.1 h i b hb

/-- A branch that is there. -/
theorem branch (h : a.Holds Good) (id : Nat) :
    Gives (fun b => ∀ v ∈ b.values, Good v) (a.branch id) := by
  unfold Arena.branch
  cases hb : a.branches[id]? with
  | none => exact .error _
  | some b => exact .ok (holds_iff.1 h id b hb)

/-- The locals in sight of a branch. A branch lies behind the one around it, so
the induction is on its number. -/
theorem localsAbove (h : a.Holds Good) (id : Nat) :
    ∀ bindings ∈ a.localsAbove id, ∀ l ∈ bindings, Good l.2 := by
  have hlocals : ∀ {i : Nat} {b : Branch}, a.branches[i]? = some b →
      ∀ l ∈ b.locals, Good l.2 :=
    fun hb l hl => holds_iff.1 h _ _ hb l.2
      (List.mem_cons_of_mem _ (List.mem_cons_of_mem _ (List.mem_map_of_mem hl)))
  induction id using Nat.strongRecOn with
  | _ id ih =>
    cases hb : a.branches[id]? with
    | none =>
      unfold Arena.localsAbove
      rw [hb]
      exact nofun
    | some b =>
      rw [localsAbove_eq hb]
      refine List.forall_mem_cons.2 ⟨hlocals hb, ?_⟩
      unfold above
      rw [hb, Option.bind_some]
      cases b.parent with
      | none => exact nofun
      | some up =>
        dsimp only
        split_ifs with hlt
        · exact ih up hlt
        · exact nofun

/-- What a branch sees. -/
theorem scopeOf (h : a.Holds Good) (id : Nat) :
    Gives (fun scope => ∀ v ∈ scope.values, Good v) (a.scopeOf id) := by
  intro scope hs
  obtain ⟨b, hb, rfl⟩ := exists_of_scopeOf hs
  refine List.forall_mem_cons.2 ⟨holds_iff.1 h id b hb _ List.mem_cons_self, ?_⟩
  rw [← localsAbove_eq hb, List.forall_mem_flatMap]
  exact fun bindings hmem =>
    List.forall_mem_map.2 (h.localsAbove id bindings hmem)

/-- What has become of the children of a branch. -/
theorem yieldsOf (h : a.Holds Good) (id : Nat) :
    Gives (fun yields => ∀ y ∈ yields, Good y.result ∧ Good y.origin)
      (a.yieldsOf id) := by
  refine (h.branch id).bind fun b _ => .mapM fun child _ =>
    (h.branch child).map fun c hc => ?_
  exact ⟨hc _ List.mem_cons_self,
    hc _ (List.mem_cons_of_mem _ List.mem_cons_self)⟩

/-- A branch whose children are taken out. These are left empty, and the empty
text has the property as every text has. -/
theorem drain (h : a.Holds Good) (hG : Keeps Good) (id : Nat) :
    (a.drain id).Holds Good := by
  unfold Arena.drain
  refine Holds.modify ?_ id fun b hb => hb
  generalize (a.branches[id]?.map Branch.children).getD [] = children
  induction children generalizing a with
  | nil => exact h
  | cons child children ih =>
    refine ih (h.modify child fun b hb => ?_)
    obtain ⟨-, hb⟩ := List.forall_mem_cons.1 hb
    obtain ⟨-, hb⟩ := List.forall_mem_cons.1 hb
    exact List.forall_mem_cons.2
      ⟨hG.text "", List.forall_mem_cons.2 ⟨hG.text "", hb⟩⟩

/-- The value of a scope comes to its parent, -/
theorem receive (h : a.Holds Good) (target : Option String) (parent : Nat)
    {v : Value} (hv : Good v) : (a.receive target parent v).Holds Good := by
  refine h.modify parent fun b hb => ?_
  obtain ⟨hstream, hb⟩ := List.forall_mem_cons.1 hb
  obtain ⟨horigin, hlocals⟩ := List.forall_mem_cons.1 hb
  cases target with
  | none => exact List.forall_mem_cons.2 ⟨hv, hb⟩
  | some name =>
    exact List.forall_mem_cons.2 ⟨hstream, List.forall_mem_cons.2 ⟨horigin,
      List.forall_mem_map.2
      (Bindings.forall_mem_set hv (List.forall_mem_map.1 hlocals))⟩⟩

/-- branches are cut off, -/
theorem ascend (h : a.Holds Good) (s : OpenScope) :
    (a.ascend s).Holds Good := by
  refine holds_iff.2 fun i b hb => ?_
  rw [getElem?_ascend] at hb
  split at hb
  · exact holds_iff.1 h i b hb
  · cases hb

/-- and a line brings a stream, a local and elements. -/
theorem settle (h : a.Holds Good) (leaf : Nat) {o : Outcome}
    (ho : ∀ v ∈ o.values, Good v) :
    (a.settle leaf o).Holds Good := by
  obtain ⟨hstream, ho⟩ := List.forall_mem_cons.1 ho
  obtain ⟨hbind, helements⟩ := List.forall_mem_append.1 ho
  refine Holds.modify (fun v hv => ?_) leaf fun b hb => ?_
  · simp only [values, Array.toList_appendList, List.flatMap_append,
      List.mem_append] at hv
    obtain hv | hv := hv
    · exact h v hv
    · obtain ⟨b, hb, hv⟩ := List.mem_flatMap.1 hv
      exact forall_mem_branchesOf helements b hb v hv
  · obtain ⟨-, hb⟩ := List.forall_mem_cons.1 hb
    obtain ⟨horigin, hlocals⟩ := List.forall_mem_cons.1 hb
    exact List.forall_mem_cons.2 ⟨hstream, List.forall_mem_cons.2 ⟨horigin,
      List.forall_mem_map.2
        (Bindings.forall_mem_setAll (List.forall_mem_map.1 hbind)
          (List.forall_mem_map.1 hlocals))⟩⟩

theorem commit (h : a.Holds Good) {l : List (Nat × Outcome)}
    (hl : ∀ o ∈ l, ∀ v ∈ o.2.values, Good v) : (a.commit l).Holds Good := by
  induction l generalizing a with
  | nil => exact h
  | cons o l ih =>
    obtain ⟨ho, hl⟩ := List.forall_mem_cons.1 hl
    exact ih (h.settle o.1 ho) hl

end Holds

/-- The machine after a line. -/
theorem Holds.after {m : Machine} (h : m.arena.Holds Good) (line : Nat)
    (action : Action) {outcomes : List Outcome}
    (ho : ∀ o ∈ outcomes, ∀ v ∈ o.values, Good v) :
    (m.after line action outcomes).arena.Holds Good := by
  have hcommit : (m.arena.commit (m.arena.leaves.zip outcomes)).Holds Good :=
    h.commit fun o hmem => ho o.2 (List.of_mem_zip hmem).2
  unfold Machine.after
  cases action.opened? with
  | none => exact hcommit
  | some opened => exact hcommit

end Arena

end StreamScript
