import StreamScript.Proofs.Layers
import StreamScript.Proofs.LikePrograms

/-!
# Scopes whose value is stored

A scope puts its value into the stream, or into a local if it is stored.
Nothing else makes a difference between the two: the elements are the same, and
so are the block and the fold, on every branch (`PerElement.run_opens`). Hence
a scope that is stored leaves each branch as it was but for the local
(`Drive.storedInto_of_reaches`), and what it puts there is what would have been
in the stream.

So lines that store a scope in the end and then say the name leave the same
stream as lines that end with the scope (`EndsStored.leaveAlike`). They need
not do so in the outermost block: the block of an enclosing scope leaves the
same stream on each element, and that is all the scope sees of it.
-/

namespace StreamScript

variable {σ : Type} {host : Host σ} {calls : Callables σ}

/-! ## On one branch

The two statements that open a scope differ in where the value goes, and in
nothing before that. They are written as one here, with the place as an
argument (`ScopeForm.into`), and so is what the scope comes to on a branch
(`scopeValue`): the elements are found, the block is run on each, and the
yields are folded. -/

/-- **A scope whose value goes somewhere**: into a local, or else into the
stream. The two statements are written differently and are different actions;
what they have in common is all but the place of the value. -/
def ScopeForm.into (s : ScopeForm) : Option String → Action
  | none => .scope s
  | some name => .storeScope name s

/-- Either statement opens the scope, and the scope remembers where its value
goes. -/
theorem ScopeForm.opened?_into (s : ScopeForm) (target : Option String) :
    (s.into target).opened? = some (s, target) := by
  cases target <;> rfl

/-- **What is looked up on a branch** that has received a value under a name.
The name is found in the locals of the branch itself, before any of the same
name further up. -/
theorem Spot.lookup_receive (spot : Spot) (c : Cell) (name : String) (v : Value)
    (n : String) :
    (spot.scope (c.receive (some name) v)).lookup n =
      if n = name then some v else (spot.scope c).lookup n := by
  show ((c.locals.set name v) :: spot.above).findSome? (fun b => b.get? n) =
    if n = name then some v else (c.locals :: spot.above).findSome? fun b =>
    b.get? n
  rw [List.findSome?_cons, List.findSome?_cons, Bindings.get?_set]
  by_cases hn : n = name
  · rw [if_pos hn, if_pos hn]
  · rw [if_neg hn, if_neg hn]

namespace PerElement

variable {x : Placed Step} {s : ScopeForm}

/-- **What a scope comes to on one branch**, wherever that goes. It finds the
elements first and then is `PerElement.scope` without its last step. Whether
the value is then stored or becomes the stream is all that the two kinds of
scope differ in. -/
def scopeValue (calls : Callables σ) (s : ScopeForm)
    (block : Spot → Cell → Act σ Cell) (spot : Spot) (c : Cell) :
    Act σ Value := do
  let elements ← s.elements calls (spot.scope c)
  let yields ← elements.zipIdx.mapM fun (v, i) =>
    yieldOf block (spot.below c i) v
  s.value calls (spot.scope c) yields

/-- **A scope sees of its block** only the streams that this leaves. Locals
that are set in a block end with it. This is why a block may end with a stored
scope and its name, or with the scope itself, and nothing outside can tell. -/
theorem scope_congr {block block' : Spot → Cell → Act σ Cell}
    (h : ∀ spot c, (do return (← block spot c).stream)
      = (do return (← block' spot c).stream))
    (s : ScopeForm) (target : Option String) (elements : List Value) :
    scope calls s target elements block
    = scope calls s target elements block' := by
  have hyield : yieldOf block = yieldOf block' := by
    funext spot v
    have hv := congrArg (fun x : Act σ Value => do
      let result ← x
      return ({ result, origin := v } : Yield)) (h spot { stream := v })
    simp only [bind_assoc, pure_bind] at hv
    exact hv
  funext spot c
  unfold scope
  rw [hyield]

/-- **A line that opens a scope** puts what the scope comes to where it
belongs. What follows the block is run on the branch with the value in it. -/
theorem run_opens (target : Option String)
    (hx : x.content = .act (s.into target)) (rest : List (Placed Step)) :
    run calls (x :: rest) = fun spot c => (do
      let v ← scopeValue calls s (run calls (rest.takeWhile (standsIn x.depth)))
          spot c
      run calls (rest.dropWhile (standsIn x.depth)) spot
        (c.receive target v)) := by
  have hexecute : ∀ scope, (s.into target).execute calls scope = (do
      let elements ← s.elements calls scope
      return { stream := scope.stream, elements := some elements }) := by
    intro scope
    cases target <;> rfl
  rw [run_of_opened hx (s.opened?_into target)]
  funext spot c
  unfold scope scopeValue
  rw [hexecute]
  simp only [bind_assoc, pure_bind]
  rfl

/-- A name that a branch has just stored is read from it. -/
theorem run_name {y : Placed Step} {name : String}
    (hy : y.content = .act (.eval (.name name))) (spot : Spot) (c : Cell)
    (v : Value) :
    run calls [y] spot (c.receive (some name) v) =
      pure { stream := v, locals := c.locals.set name v } := by
  have hlookup : (spot.scope (c.receive (some name) v)).lookup name
      = some v := by
    rw [Spot.lookup_receive, if_pos rfl]
  have hexecute : (Action.eval (.name name)).execute calls
      (spot.scope (c.receive (some name) v))
      = (pure { stream := v } : Act σ Outcome) := by
    show (Expr.resolve calls _ name >>= fun v =>
      pure ({ stream := v } : Outcome)) = _
    unfold Expr.resolve
    rw [hlookup]
    exact pure_bind _ _
  rw [run_act hy nofun, hexecute, pure_bind]
  show run calls [] spot _ = _
  rw [run]
  rfl

end PerElement

/-! ## Lines that end with a scope

In a list of lines a block is whatever is deeper, so to replace a scope at the
end of a list is to replace its header and to drop the line behind its block.
Wherever the list is cut at a depth, either all that differs is cut off with
the front, or none of it is. -/

/-- **Lines that store a scope in the end and then say the name**, and lines
that end with the scope. Lines in front of the two may be any, but the same;
they may open scopes, so that the lines that differ stand deep inside. -/
inductive EndsStored (name : String) (s : ScopeForm) :
    List (Placed Step) → List (Placed Step) → Prop
  | here {x y : Placed Step} {block : List (Placed Step)}
      (hx : x.content = .act (.storeScope name s))
      (hblock : ∀ z ∈ block, standsIn x.depth z = true)
      (hy : y.content = .act (.eval (.name name)))
      (hdepth : y.depth = x.depth) :
      EndsStored name s (x :: (block ++ [y]))
      (x.map (fun _ => .act (.scope s)) :: block)
  | cons (x : Placed Step) {l l' : List (Placed Step)}
      (rest : EndsStored name s l l') :
      EndsStored name s (x :: l) (x :: l')

/-- What stands in a scope stands in those around it. -/
theorem standsIn_of_standsIn {x z : Placed Step} {depth : Nat}
    (hx : x.content.isBlank = false) (h : standsIn depth x = true)
    (hz : standsIn x.depth z = true) : standsIn depth z = true := by
  unfold standsIn at h hz ⊢
  rw [hx, Bool.false_or, decide_eq_true_iff] at h
  rw [Bool.or_eq_true, decide_eq_true_iff] at hz ⊢
  exact hz.imp_right (Nat.lt_trans h)

namespace EndsStored

variable {name : String} {s : ScopeForm} {l l' : List (Placed Step)}

/-- **The block of a scope is cut out of both alike**: it holds all of the
lines, or none of those that are different. The line that says the name stands
as deep as the scope that it reads, so it is never in a block that the scope is
not in. -/
theorem cut (h : EndsStored name s l l') (depth : Nat) :
    ((∀ z ∈ l, standsIn depth z = true) ∧ ∀ z ∈ l', standsIn depth z = true) ∨
      (l.takeWhile (standsIn depth) = l'.takeWhile (standsIn depth) ∧
        EndsStored name s (l.dropWhile (standsIn depth))
        (l'.dropWhile (standsIn depth))) := by
  induction h with
  | @here x y block hx hblock hy hdepth =>
    have hopen : x.content.isBlank = false := by
      rw [hx]
      rfl
    have hsame : standsIn depth (x.map fun _ => .act (.scope s))
        = standsIn depth x := by
      unfold standsIn
      rw [hopen]
      rfl
    cases hin : standsIn depth x with
    | true =>
      have hy' : standsIn depth y = true := by
        unfold standsIn at hin ⊢
        rw [hopen] at hin
        rw [hy, hdepth]
        exact hin
      have hblock' : ∀ z ∈ block, standsIn depth z = true := fun z hz =>
        standsIn_of_standsIn hopen hin (hblock z hz)
      refine .inl
        ⟨List.forall_mem_cons.2 ⟨hin, List.forall_mem_append.2 ⟨hblock', ?_⟩⟩,
          List.forall_mem_cons.2 ⟨hsame.trans hin, hblock'⟩⟩
      exact List.forall_mem_singleton.2 hy'
    | false =>
      simp only [List.takeWhile_cons, List.dropWhile_cons, hin, hsame,
        Bool.false_eq_true, if_false]
      exact .inr ⟨trivial, .here hx hblock hy hdepth⟩
  | @cons x l l' rest ih =>
    cases hin : standsIn depth x with
    | true =>
      obtain ⟨hall, hall'⟩ | ⟨htake, hdrop⟩ := ih
      · exact .inl ⟨List.forall_mem_cons.2 ⟨hin, hall⟩,
          List.forall_mem_cons.2 ⟨hin, hall'⟩⟩
      · simp only [List.takeWhile_cons_of_pos hin,
          List.dropWhile_cons_of_pos hin]
        exact .inr ⟨congrArg (x :: ·) htake, hdrop⟩
    | false =>
      simp only [List.takeWhile_cons, List.dropWhile_cons, hin,
        Bool.false_eq_true, if_false]
      exact .inr ⟨trivial, .cons x rest⟩

open PerElement in
/-- **They leave the same stream**, on every branch. They do not leave the same
locals: the first have bound the name. So the statement is about the stream,
and inside a block that is all that counts (`scope_congr`). -/
theorem stream_run (h : EndsStored name s l l') (spot : Spot) (c : Cell) :
    (do return (← run calls l spot c).stream)
      = (do return (← run calls l' spot c).stream) := by
  -- By the length, since both the block of a scope and what comes behind it
  -- are shorter.
  induction hn : l.length using Nat.strongRecOn generalizing l l' spot c with
  | _ n ih =>
    cases h with
    | @here x y block hx hblock hy hdepth =>
      have hout : standsIn x.depth y = false := by
        unfold standsIn
        rw [hy, hdepth]
        simp [Step.isBlank]
      rw [run_opens (some name) hx, run_opens none (s := s) rfl,
        List.takeWhile_append_of_pos hblock,
        List.dropWhile_append_of_pos hblock,
        List.takeWhile_cons_of_neg (by simp [hout]),
        List.dropWhile_cons_of_neg (by simp [hout]),
        List.append_nil]
      have hall : block.takeWhile (standsIn x.depth) = block :=
        List.takeWhile_eq_self_iff.2 hblock
      have hnone : block.dropWhile (standsIn x.depth) = [] :=
        List.dropWhile_eq_nil_iff.2 hblock
      have hdepth' : (x.map fun _ => Step.act (.scope s)).depth = x.depth := rfl
      rw [hdepth', hall, hnone, bind_assoc, bind_assoc]
      -- What has been stored is said, and what is in the stream is there.
      refine bind_congr fun v => ?_
      rw [run_name hy, run]
      rfl
    | @cons x l l' rest =>
      have hlt : l.length < n := hn ▸ Nat.lt_succ_self _
      cases hx : x.content with
      | blank =>
        have hblank : x.content.isBlank = true := by
          rw [hx]
          rfl
        rw [run_blank hblank, run_blank hblank]
        exact ih _ hlt rest spot c rfl
      | invalid e => rw [run, run, hx]
      | act action =>
        by_cases hexit : action = .exit
        · rw [run_exit (hx.trans (congrArg Step.act hexit)),
            run_exit (hx.trans (congrArg Step.act hexit))]
        cases hopened : action.opened? with
        | none =>
          rw [run_of_not_opened hx hexit hopened,
            run_of_not_opened hx hexit hopened]
          simp only [bind_assoc, pure_bind]
          exact bind_congr fun outcome => ih _ hlt rest spot _ rfl
        | some opened =>
          rw [run_of_opened hx hopened, run_of_opened hx hopened]
          obtain ⟨hall, hall'⟩ | ⟨htake, hdrop⟩ := rest.cut x.depth
          · have hblock := fun spot c => ih _ hlt rest spot c rfl
            rw [List.takeWhile_eq_self_iff.2 hall,
              List.takeWhile_eq_self_iff.2 hall', List.dropWhile_eq_nil_iff.2
              hall, List.dropWhile_eq_nil_iff.2 hall']
            simp only [scope_congr hblock]
          · have hlt' := Nat.lt_of_le_of_lt
              (List.dropWhile_sublist (standsIn x.depth) (l := l)).length_le hlt
            rw [htake]
            simp only [bind_assoc]
            exact bind_congr fun outcome => bind_congr fun c =>
              ih _ hlt' hdrop spot c rfl

/-- **What is true of all lines of the one** is true of all lines of the other,
if it is true of those that are different. It is used to carry over that no
line is an error and that none is an exit. -/
theorem forall_iff (h : EndsStored name s l l') {P : Placed Step → Prop}
    (hscope : ∀ x, x.content = .act (.scope s) → P x)
    (hstored : ∀ x, x.content = .act (.storeScope name s) → P x)
    (hname : ∀ x, x.content = .act (.eval (.name name)) → P x) :
    (∀ x ∈ l, P x) ↔ ∀ x ∈ l', P x := by
  induction h with
  | here hx _ hy =>
    simp only [List.forall_mem_cons, List.forall_mem_append, List.not_mem_nil,
      false_imp_iff, implies_true, and_true, hstored _ hx, hname _ hy, true_and]
    exact (and_iff_right (hscope _ rfl)).symm
  | cons x _ ih => rw [List.forall_mem_cons, List.forall_mem_cons, ih]

/-- Lines that are deep enough for one another stay so: the line that is left
out has opened nothing. -/
theorem nested (h : EndsStored name s l l') {room : Nat} (hl : Nested room l) :
    Nested room l' := by
  induction h generalizing room with
  | here hx =>
    unfold Nested at hl ⊢
    rw [hx] at hl
    exact ⟨hl.1, hl.2.of_append⟩
  | cons x _ ih =>
    unfold Nested at hl ⊢
    split
    · next hx =>
      rw [if_pos hx] at hl
      exact ih hl
    · next hx =>
      rw [if_neg hx] at hl
      exact ⟨hl.1, ih hl.2⟩

theorem isBody (h : EndsStored name s l l') (hl : IsBody l) : IsBody l' where
  nested := h.nested hl.nested
  error?_eq_none := by
    refine (h.forall_iff ?_ ?_ ?_).1 hl.error?_eq_none
    all_goals
      intro x hx
      rw [hx]
      rfl
  depth_eq_zero := by
    refine (h.forall_iff ?_ ?_ ?_).1 hl.depth_eq_zero
    all_goals
      intro x hx hexit
      rw [hx] at hexit
      cases hexit

/-- **They leave the same**, executed from a root. What a run hands back is the
stream of the root, and that is the same by `stream_run`. -/
theorem leaveAlike (h : EndsStored name s l l') (hl : IsBody l)
    (host : Host σ) :
    Drive.LeaveAlike host l l' := by
  intro calls hc input locals w v
  rw [Drive.output_lines hc hl host, Drive.output_lines hc (h.isBody hl) host,
    h.stream_run]

end EndsStored

/-! ## When a scope is closed

Now the run itself, with a machine that has many leaves. The statement is about
two moments: the line that stores the scope is reached, with all that is deeper
closed, and later the scope itself is closed. In between are exactly the lines
of the block, which is what makes `PerElement.run` on each leaf the whole
story. -/

/-- **A machine that a scope has been stored in**: on each leaf the name is
bound to the value of the scope, and all else is as it was. -/
structure Machine.StoredInto (name : String) (values : Nat → Value)
    (m m' : Machine) : Prop where
  scopes_eq : m'.scopes = m.scopes
  leaves_eq : m'.arena.leaves = m.arena.leaves
  kept : ∀ j, j ∉ m.arena.leaves → m'.arena.branches[j]? = m.arena.branches[j]?
  leaf : ∀ i ∈ m.arena.leaves, ∃ b, m.arena.branches[i]? = some b ∧
    m'.arena.branches[i]?
    = some { b with locals := b.locals.set name (values i) }
  /-- The name is found on the leaf, wherever else it was bound, and other
  names as before. -/
  seen : ∀ i ∈ m.arena.leaves, ∃ scope scope', m.arena.scopeOf i = .ok scope ∧
    m'.arena.scopeOf i = .ok scope' ∧ scope'.stream = scope.stream ∧
    scope'.index = scope.index ∧
    ∀ n, scope'.lookup n = if n = name then some (values i) else scope.lookup n

namespace Machine

variable {m : Machine} {n : Nat} {name : String}

/-- What the leaves hold is all that is different, so each name is looked up on
a leaf as before, but for the new one. -/
theorem storedInto_hold (hready : m.arena.Ready n) (values : Nat → Value) :
    m.StoredInto name values
      (m.hold fun i => (m.arena.cell i).receive (some name) (values i)) where
  scopes_eq := rfl
  leaves_eq := rfl
  kept j hj := (Arena.getElem?_hold _ _ j).trans (if_neg hj)
  leaf i hi := by
    obtain ⟨b, hb⟩ := hready.exists_branch hi
    refine ⟨b, hb, ?_⟩
    have hcell : m.arena.cell i = b.cell := by
      unfold Arena.cell
      rw [hb]
      rfl
    show (m.arena.hold _).branches[i]? = _
    rw [Arena.getElem?_hold, if_pos hi, hb, hcell]
    rfl
  seen i hi := by
    refine ⟨_, _, hready.scopeOf hi, (hready.hold _).scopeOf hi, ?_⟩
    rw [hready.spot_hold _ hi, hready.cell_hold _ hi]
    exact ⟨rfl, rfl, Spot.lookup_receive _ _ _ _⟩

end Machine

/-- **The block of a scope that is stored** is a block of the same scope if it
is not. -/
theorem IsBlock.unstored {x : Placed Step} {block : List (Placed Step)}
    {name : String} {s : ScopeForm} (hblock : IsBlock x.depth (x :: block))
    (hx : x.content = .act (.storeScope name s)) :
    IsBlock x.depth (x.map (fun _ => .act (.scope s)) :: block) where
  nested := by
    have hnested := hblock.nested
    unfold Nested at hnested ⊢
    rw [hx] at hnested
    exact hnested
  le_depth := List.forall_mem_cons.2
    ⟨fun _ => Nat.le_refl _, (List.forall_mem_cons.1 hblock.le_depth).2⟩
  error?_eq_none :=
    List.forall_mem_cons.2
      ⟨rfl, (List.forall_mem_cons.1 hblock.error?_eq_none).2⟩
  stays :=
    List.forall_mem_cons.2 ⟨nofun, (List.forall_mem_cons.1 hblock.stays).2⟩

namespace Drive

variable {α : Type} {w v w₁ v₀ v₁ v₂ : World σ} {p q q₀ q₁ q₂ : Progress}
  {m m' : Machine} {x : Placed Step} {l block : List (Placed Step)}
  {s : ScopeForm} {name : String}

/-- **Lines that a run comes through** have a result. -/
theorem Reaches.through_result (hc : calls.Steady) {token : Option Nat}
    {before rest : List (Placed Step)}
    (h : Reaches host calls token (before ++ rest) p w rest q v) (u : World σ) :
    (Drive.through host calls before).result u p.machine
    = .ok ((), q.machine) := by
  have hbefore := h.before
  clear h
  generalize hnil : ([] : List (Placed Step)) = last at hbefore
  induction hbefore with
  | here =>
    subst hnil
    rfl
  | blank hs _ ih =>
    rw [through_blank hs]
    exact ih hnil
  | @line x _ _ _ _ _ _ _ _ hs ht _ _ ih =>
    have htake :=
      take_closed Act.steady_closed steady_closed hc host (steady_admits x)
    exact (through_result_cons hc hs _).2
      ⟨false, _, Steady.result_of_exec htake ht u, ih hnil⟩

/-- **A block that opens a scope with its first line and closes it in the
end**: on each leaf the value of the scope goes where it belongs. -/
theorem block_result_opens (hc : calls.Steady) (target : Option String)
    (hx : x.content = .act (s.into target))
    (hblock : IsBlock x.depth (x :: block))
    (hin : ∀ z ∈ block, standsIn x.depth z = true) {n : Nat}
    (hm : m.scopes.length = x.depth) (hready : m.arena.Ready n) :
    (Drive.block host calls x.depth (x :: block)).result w m = .ok ((), m') ↔
      ∃ values : Nat → Value,
        (∀ i ∈ m.arena.leaves,
          (PerElement.scopeValue calls s (PerElement.run calls block)
          (m.arena.spot i) (m.arena.cell i)).value w = .ok (values i)) ∧
        m' = m.hold fun i => (m.arena.cell i).receive target (values i) := by
  have hrun : PerElement.run calls (x :: block) = fun spot c => (do
      let v ← PerElement.scopeValue calls s (PerElement.run calls block) spot c
      return c.receive target v) := by
    rw [PerElement.run_opens target hx, List.takeWhile_eq_self_iff.2 hin,
      List.dropWhile_eq_nil_iff.2 hin]
    funext spot c
    refine bind_congr fun v => ?_
    rw [PerElement.run]
  have hreceive : ∀ (c : Cell) (v : Value),
      (pure (c.receive target v) : Act σ Cell).Steady :=
    fun c v => Act.steady_closed.pure _
  rw [block_result_iff_each hc hblock hm hready, hrun]
  constructor
  · rintro ⟨g, hg, rfl⟩
    have hsplit :=
      fun i hi => (Act.value_bind_eq_ok_iff (hreceive _)).1 (hg i hi)
    choose! values hvalues hreceived using hsplit
    exact ⟨values, hvalues,
      Machine.hold_congr fun i hi => (Except.ok.inj (hreceived i hi)).symm⟩
  · rintro ⟨values, hvalues, rfl⟩
    exact ⟨_, fun i hi => (Act.value_bind_eq_ok_iff (hreceive _)).2
      ⟨values i, hvalues i hi, rfl⟩, rfl⟩

/-- Where a run comes there are at least as many scopes open as the next line
is deep. -/
theorem depth_le_of_reaches {token : Option Nat} {input : Value}
    {locals : Bindings Value} {rest : List (Placed Step)} (hnested : Nested 0 l)
    (h : Reaches host calls token l (.start input locals) w (x :: rest) q v)
    (hx : x.content.isBlank = false) : x.depth ≤ q.scopes.length := by
  have hstart : Stands host calls token (.start input locals) w []
      (.start input locals) :=
    ⟨Machine.rooted_start input locals, .inl rfl⟩
  obtain ⟨-, -, -, hrest⟩ := hstart.reaches (.here _ _ _) hnested h
  unfold Nested at hrest
  rw [if_neg (by simp [hx])] at hrest
  exact hrest.1

/-- **A scope that is stored changes nothing else.** Where a run comes to the
line, and has closed what is deeper, the leaves are as they are when the scope
is closed, but for the name; and this is bound to what the scope puts in the
stream of the same leaf if it is not stored. -/
theorem storedInto_of_reaches (hc : calls.Steady) {token : Option Nat}
    {input : Value} {locals : Bindings Value}
    {before behind : List (Placed Step)}
    (hl : IsBody (before ++ x :: (block ++ behind)))
    (hstays : ∀ z ∈ before ++ x :: (block ++ behind), z.content ≠ .act .exit)
    (hx : x.content = .act (.storeScope name s))
    (hin : ∀ z ∈ block, standsIn x.depth z = true)
    (hreach : Reaches host calls token (before ++ x :: (block ++ behind))
      (.start input locals) w (x :: (block ++ behind)) q v)
    (hopen : (closeTo host calls x.depth).exec q v = (.ok (), q₀, v₀))
    (hthrough : Reaches host calls token (x :: (block ++ behind)) q v
      behind q₁ v₁)
    (hclose : (closeTo host calls x.depth).exec q₁ v₁ = (.ok (), q₂, v₂)) :
    ∃ values : Nat → Value, q₀.machine.StoredInto name values q₂.machine ∧
      (Drive.block host calls x.depth
        (x.map (fun _ => .act (.scope s)) :: block)).result v₀ q₀.machine =
        .ok ((), q₀.machine.hold fun i =>
          { q₀.arena.cell i with stream := values i }) := by
  have hblank : x.content.isBlank = false := by
    rw [hx]
    rfl
  have hsteady := closeTo_closed Act.steady_closed steady_closed hc host x.depth
  have hmem : x :: block ⊆ before ++ x :: (block ++ behind) := fun z hz =>
    List.mem_append_right before (List.mem_append_left behind hz)
  have hblock : IsBlock x.depth (x :: block) := by
    have hnested := hl.nested.behind hblank (Nat.le_refl x.depth)
    refine ⟨Nested.of_append (l := x :: block) hnested, ?_,
      fun z hz => hl.error?_eq_none z (hmem hz), fun z hz => hstays z (hmem hz)⟩
    refine List.forall_mem_cons.2 ⟨fun _ => Nat.le_refl _, fun z hz hzb => ?_⟩
    have hz' := hin z hz
    unfold standsIn at hz'
    rw [hzb, Bool.false_or, decide_eq_true_iff] at hz'
    exact Nat.le_of_lt hz'
  -- The machine that the scope is opened on.
  obtain ⟨n, hready⟩ :=
    (closeTo_grown (hreach.grown (Machine.grown_start input locals))
      hopen).ready
  have hm : q₀.machine.scopes.length = x.depth := by
    have hdepth := depth_le_of_reaches hl.nested hreach hblank
    have hscopes := congrArg List.length (exec_closeTo_scopes hopen)
    rw [List.length_drop] at hscopes
    exact hscopes.trans (Nat.sub_sub_self hdepth)
  have hresult :
      (Drive.block host calls x.depth (x :: block)).result v₀ q₀.machine
      = .ok ((), q₂.machine) := by
    have htaken : (Drive.through host calls (x :: block)).result v₀ q.machine =
        .ok ((), q₁.machine) := hthrough.through_result hc v₀
    obtain ⟨m₁, hfirst, htaken⟩ :=
      (through_result_closed hc hblank (Nat.le_refl x.depth) block).1 htaken
    rw [hsteady.result_of_exec hopen v₀] at hfirst
    obtain ⟨-, rfl⟩ := Prod.mk.inj (Except.ok.inj hfirst)
    exact (block_result hc x.depth _).2
      ⟨_, htaken, hsteady.result_of_exec hclose v₀⟩
  obtain ⟨values, hvalues, hmachine⟩ :=
    (block_result_opens hc (some name) hx hblock hin hm hready).1 hresult
  refine ⟨values, ?_, ?_⟩
  · rw [hmachine]
    exact Machine.storedInto_hold hready values
  · have hscope := hblock.unstored hx
    exact (block_result_opens (x := x.map fun _ => .act (.scope s)) hc none rfl
      hscope hin hm hready).2
      ⟨values, hvalues, rfl⟩

end Drive

end StreamScript
