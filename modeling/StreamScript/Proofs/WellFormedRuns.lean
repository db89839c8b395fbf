import StreamScript.Proofs.NotedRuns
import StreamScript.Proofs.SortMembers
import StreamScript.Proofs.WellFormed

/-!
# All values of a run are well formed

Operators, scopes and built-in functions take values apart and put values
together, and what they make of well-formed values is well formed. Most of them
make texts, numbers and truth values, where there is nothing to show, or put
what they are given into arrays. Only two bring maps about: `pivot`, which
groups the elements of its scope entry by entry, and `parseJson`, whose objects
have distinct names. Whatever else holds a map has been given it.

So to be well formed is a property that all values of a run have, if the input
and the globals have it (`Program.run_wellFormed`).
-/

namespace StreamScript

open Value (WellFormed)

/-! ## Operators

Of two operands an operator makes a text, a number, a truth value, or an array
with the elements of both. What is found in a map or an array by a key is one
of its values. -/

namespace Value

variable {l r v container key : Value}

/-- The sum of two arrays holds the elements of both; all other sums are texts
or numbers. -/
theorem gives_add (hl : l.WellFormed) (hr : r.WellFormed) :
    Gives WellFormed (l.add r) := by
  unfold add
  split
  case h_6 xs ys =>
    exact .ok (.array (List.forall_mem_append.2 ⟨hl.items, hr.items⟩))
  all_goals first | exact .ok (.number _) | exact .ok (.text _) | exact .error _

theorem gives_arith (symbol : String) (l r : Value) :
    Gives WellFormed (l.arith symbol r) := by
  unfold arith
  split
  · exact .ok (.number _)
  · exact .error _

/-- What is found in a map. -/
theorem WellFormed.entry {entries : Table Value} (h : WellFormed (.map entries))
    (hv : entry? entries key = some v) : v.WellFormed := by
  obtain ⟨k, -, hget⟩ := Option.bind_eq_some_iff.1 hv
  obtain ⟨entry, hfind, rfl⟩ := Option.map_eq_some_iff.1 hget
  exact h.entries entry (List.mem_of_find?_eq_some hfind)

/-- What stands at a position. -/
theorem mem_of_elementAt? {α : Type} {items : List α} {i : Int} {x : α}
    (h : elementAt? items i = some x) : x ∈ items := by
  unfold elementAt? at h
  dsimp only at h
  split at h
  · exact List.mem_of_getElem? h
  · cases h

/-- A member of a well-formed value is the value of one of its entries or one of
its elements. -/
theorem gives_member (h : container.WellFormed) :
    Gives WellFormed (container.member key) := by
  unfold member
  split
  · split
    · next found => exact .ok (h.entry found)
    · exact .error _
  · dsimp only
    split
    · next found => exact .ok (h.items _ (mem_of_elementAt? found))
    · exact .error _
  · exact .error _

end Value

theorem Expr.gives_applyUnary (op : UnaryOp) (v : Value) :
    Gives WellFormed (applyUnary op v) := by
  cases op with
  | negate => cases v <;> first | exact .ok (.number _) | exact .error _
  | not =>
    unfold applyUnary Value.not
    dsimp only
    split
    · exact .ok (.truth _)
    · exact .error _

/-- A value is joined with another or looked up in it, and all other operators
make truth values and numbers. -/
theorem Expr.gives_applyBinary (op : BinaryOp) {l r : Value} (hl : l.WellFormed)
    (hr : r.WellFormed) : Gives WellFormed (applyBinary op l r) := by
  have truth : ∀ (x : Except RunError Bool) (f : Bool → Bool),
      Gives WellFormed (x.map fun b => .truth (f b)) :=
    fun x f => Gives.map (P := fun _ => True) (fun _ _ => trivial) fun b _ =>
      .truth (f b)
  cases op with
  | add => exact Value.gives_add hl hr
  | eq => exact truth (l.equals r) id
  | ne => exact truth (l.equals r) not
  | lt | gt | le | ge => exact truth (l.relate _ r) id
  | member => exact Value.gives_member hl
  | _ => exact Value.gives_arith _ l r

/-! ## Scopes

The elements of a scope are parts of its value; those of a map are arrays of a
key and its value. What they are folded into is made of the elements and of
what the block has made of them, and both are well formed. -/

/-- A scope goes through the elements of an array, the entries of a map as
arrays, or, with `do`, its value alone. -/
theorem ScopeKind.gives_elements (kind : ScopeKind) {v : Value}
    (h : v.WellFormed) :
    Gives (fun vs => ∀ x ∈ vs, x.WellFormed) (kind.elements v) := by
  unfold ScopeKind.elements
  split
  · exact .ok (List.forall_mem_singleton.2 h)
  · exact .ok h.items
  · refine .ok (List.forall_mem_map.2 fun entry hentry => .array ?_)
    exact List.forall_mem_cons.2 ⟨.toValue entry.1,
      List.forall_mem_singleton.2 (h.entries entry hentry)⟩
  · exact .error _

section Folding

variable {yields : List Yield}
    (h : ∀ y ∈ yields, y.result.WellFormed ∧ y.origin.WellFormed)
include h

theorem gives_keepTrue :
    Gives (fun vs => ∀ v ∈ vs, v.WellFormed) (keepTrue yields) := by
  have kept : Gives (fun found => ∀ v ∈ found, ∀ w ∈ v, w.WellFormed)
      (yields.mapM Yield.kept?) := by
    refine .mapM fun y hy => ?_
    refine Gives.map (P := fun _ => True) (fun _ _ => trivial)
      fun keep _ w hw => ?_
    split at hw
    · obtain rfl := Option.some.inj hw
      exact (h y hy).2
    · cases hw
  refine kept.map fun found hfound v hv => ?_
  obtain ⟨w, hw, rfl⟩ := List.mem_filterMap.1 hv
  exact hfound _ hw v rfl

theorem gives_sumResults : Gives WellFormed (sumResults yields) :=
  .foldlM (fun _ hsum y hy => Value.gives_add hsum (h y hy).1) (.number 0)

/-- **Groups** are added to entry by entry. -/
theorem gives_groupByResult :
    Gives (fun groups => (Value.map groups).WellFormed)
      (groupByResult yields) := by
  refine .foldlM (fun groups hgroups y hy => ?_) (.map .nil nofun)
  have hvalue : (MapChange.add y.result y.origin).value.WellFormed := (h y hy).2
  exact MapChange.gives_apply hgroups hvalue

/-- Folding puts results and elements together. Sorting and filtering leave
some of the elements, in some order; a sum is made of what the results are, and
only grouping makes a map. -/
theorem ScopeKind.gives_fold (kind : ScopeKind) :
    Gives WellFormed (kind.fold yields) := by
  cases kind with
  | map => exact .ok (.array (List.forall_mem_map.2 fun y hy => (h y hy).1))
  | filter => exact (gives_keepTrue h).map fun _ hvs => .array hvs
  | sortBy =>
    exact Gives.map (fun _ hsorted => Yield.mem_of_mem_sort hsorted)
      fun sorted hsorted =>
      .array (List.forall_mem_map.2 fun y hy => (h y (hsorted y hy)).2)
  | sumBy => exact gives_sumResults h
  | pivot => exact (gives_groupByResult h).map fun _ hgroups => hgroups
  | «do» =>
    cases yields with
    | nil => exact .ok (.text "")
    | cons y _ => exact .ok (h y List.mem_cons_self).1

end Folding

/-! ## Built-in functions

There is a lemma for every group of functions that compute alike. A function
that yields part of its target or of its arguments yields something well
formed, and one that yields a text, a number or a truth value need not look at
them. -/

namespace Builtin

variable {target : Value} {arguments : List Value}

/-- An array of texts. -/
theorem wellFormed_texts (texts : List (List Char)) :
    WellFormed (.array (texts.map textOf)) :=
  .array (List.forall_mem_map.2 fun _ _ => .text _)

theorem gives_onText (f : List Char → List Char) (target : Value) :
    Gives WellFormed (onText f target) :=
  .after _ fun _ => .ok (.text _)

theorem gives_testText (test : List Char → List Char → Bool) (target : Value)
    (arguments : List Value) :
    Gives WellFormed (testText test target arguments) :=
  .after _ fun _ => .after _ fun _ => .ok (.truth _)

theorem gives_itemsOf (b : Builtin) (h : target.WellFormed) :
    Gives (fun items => ∀ v ∈ items, v.WellFormed) (itemsOf b target) := by
  unfold itemsOf
  split
  · exact .ok h.items
  · exact .error _

theorem gives_entriesOf (b : Builtin) (h : target.WellFormed) :
    Gives (fun entries => (Value.map entries).WellFormed)
      (entriesOf b target) := by
  unfold entriesOf
  split
  · exact .ok h
  · exact .error _

/-- The items of some values, each its own item unless it is an array. -/
theorem wellFormed_flatMap {f : Value → List Value}
    (hf : ∀ v, v.WellFormed → ∀ x ∈ f v, x.WellFormed) {items : List Value}
    (h : ∀ v ∈ items, v.WellFormed) : ∀ x ∈ items.flatMap f, x.WellFormed :=
  List.forall_mem_flatMap.2 fun v hv => hf v (h v hv)

/-- The items of an array, and any other value by itself. -/
theorem wellFormed_spliced {v : Value} (h : v.WellFormed) : ∀ x ∈ (match v with
    | .array inner => inner
    | v => [v]), x.WellFormed := by
  split
  · exact h.items
  · exact List.forall_mem_singleton.2 h

theorem gives_concatenate (htarget : target.WellFormed)
    (harguments : ∀ a ∈ arguments, a.WellFormed) :
    Gives WellFormed (concatenate target arguments) := by
  unfold concatenate
  split
  · exact .ok (.array (List.forall_mem_append.2 ⟨htarget.items,
      wellFormed_flatMap (fun _ h => wellFormed_spliced h) harguments⟩))
  · exact .after _ fun _ => .after _ fun _ => .ok (.text _)

/-- A range holds numbers, -/
theorem gives_rangeFrom (start stop : Float) :
    Gives WellFormed (rangeFrom start stop) := by
  unfold rangeFrom
  split
  · split
    · exact .ok (.array (List.forall_mem_map.2 fun _ _ => .number _))
    · exact .error _
  · exact .error _

/-- an element comes from the target, -/
theorem gives_elementOf (htarget : target.WellFormed) :
    Gives WellFormed (elementOf target arguments) := by
  unfold elementOf
  dsimp only
  split
  · split
    · next found => exact .ok (htarget.entry found)
    · exact .error _
  · refine .after _ fun _ => ?_
    split
    · next found => exact .ok (htarget.items _ (Value.mem_of_elementAt? found))
    · exact .error _
  · refine .after _ fun _ => .after _ fun _ => ?_
    split
    · exact .ok (.text _)
    · exact .error _

/-- and a slice holds some of its elements. -/
theorem gives_sliceValue (htarget : target.WellFormed) :
    Gives WellFormed (sliceValue target arguments) := by
  refine .after _ fun start => .after _ fun stop => ?_
  split
  · exact .ok (.array fun v hv =>
      htarget.items v (List.mem_of_mem_drop (List.mem_of_mem_take hv)))
  · exact gives_onText _ _

/-- **What is read of JSON** is well formed. The reader keeps one value for
each name of an object, so the names are distinct. -/
theorem gives_readJson (target : Value) :
    Gives WellFormed (readJson target) := by
  refine .after _ fun s => ?_
  split
  · next found =>
      exact .ok (Value.wellFormed_ofJson (Json.distinct_of_ofChars? found))
  · exact .error _

theorem wellFormed_tryParse (htarget : target.WellFormed)
    (harguments : ∀ a ∈ arguments, a.WellFormed) :
    (tryParse target arguments).WellFormed := by
  unfold tryParse
  split
  · exact .number _
  · next default _ hdefault =>
      exact harguments default (List.mem_of_mem_head? hdefault)
  · exact htarget

/-- An argument, or what stands in for it. -/
theorem wellFormed_argument (harguments : ∀ a ∈ arguments, a.WellFormed)
    (i : Nat) :
    (arguments[i]?.getD .empty).WellFormed := by
  cases ha : arguments[i]? with
  | none => exact .text ""
  | some a => exact harguments a (List.mem_of_getElem? ha)

/-- What is chosen is one of the arguments, or the empty text where that one is
missing. -/
theorem gives_choose (harguments : ∀ a ∈ arguments, a.WellFormed) :
    Gives WellFormed (choose arguments) := by
  refine .after _ fun condition => .ok ?_
  split
  · exact wellFormed_argument harguments 1
  · exact wellFormed_argument harguments 2

/-- **Built-in functions of values keep values well formed.** -/
theorem gives_apply (b : Builtin) (htarget : target.WellFormed)
    (harguments : ∀ a ∈ arguments, a.WellFormed) :
    Gives WellFormed (b.apply target arguments) := by
  cases b with
  | split => exact .after _ fun _ => .after _ fun _ => .ok (wellFormed_texts _)
  | join =>
    exact .after _ fun _ => .after _ fun _ => .after _ fun _ => .ok (.text _)
  | concat => exact gives_concatenate htarget harguments
  | replace | piece =>
    exact .after _ fun _ => .after _ fun _ => .after _ fun _ => .ok (.text _)
  | «at» => exact gives_elementOf htarget
  | length =>
    cases target <;> exact .ok (.number _)
  | contains =>
    cases target <;> first
      | exact .ok (.truth _)
      | exact gives_testText Text.occurs _ arguments
  | startsWith | endsWith => exact gives_testText _ target arguments
  | trim | trimStart | trimEnd | toUpper | toLower | toText =>
    exact gives_onText _ target
  | modulo => exact .after _ fun _ => .after _ fun _ => .ok (.number _)
  | tryParseNum => exact .ok (wellFormed_tryParse htarget harguments)
  | range =>
    unfold apply rangeOf
    dsimp only
    split
    · exact .after _ fun _ => .after _ fun _ => gives_rangeFrom _ _
    · exact .after _ fun _ => gives_rangeFrom _ _
  | slice => exact gives_sliceValue htarget
  | flatten =>
    exact (gives_itemsOf .flatten htarget).bind fun _ hitems =>
      .ok (.array (wellFormed_flatMap (fun _ h => wellFormed_spliced h) hitems))
  | keys =>
    exact .after _ fun _ =>
      .ok (.array (List.forall_mem_map.2 fun k _ => .toValue k))
  | values =>
    exact (gives_entriesOf .values htarget).bind fun _ h =>
      .ok (.array (List.forall_mem_map.2 h.entries))
  | iif => exact gives_choose harguments
  | parseJson => exact gives_readJson target
  | toJson => exact .ok (.text _)
  | isMatch => exact .after _ fun _ => .after _ fun _ => .ok (.truth _)
  | regexReplace =>
    exact .after _ fun _ => .after _ fun _ => .after _ fun _ => .ok (.text _)
  | sideOutput | getFiles | loadFile => exact .error _

end Builtin

/-! ## Runs

All parts of a run are covered at once by taking notes: of what every task is
given and makes, and of what the branches hold. `Keeps` is what was shown
above, for operators, scopes and built-in functions together, and notes in
which all values are well formed are an account. -/

/-- **To be well formed is kept by everything.** -/
theorem Keeps.wellFormed : Keeps WellFormed where
  text := .text
  number := .number
  truth := .truth
  array := .array
  unary {op v} _ := Expr.gives_applyUnary op v
  binary {op _ _} := Expr.gives_applyBinary op
  elements {kind _} := kind.gives_elements
  fold {kind _} h := kind.gives_fold h
  apply {b _ _} := b.gives_apply

/-- Notes in which all values have a property are an account of any run. -/
theorem Account.forall_values (Good : Value → Prop) :
    Account Good fun _ notes => ∀ note ∈ notes, ∀ v ∈ note.values, Good v where
  joins _ := ⟨nofun, fun ha hb => List.forall_mem_append.2 ⟨ha, hb⟩⟩
  aside hv := List.forall_mem_singleton.2 (List.forall_mem_singleton.2 hv)
  within _ h hbefore hafter := List.forall_mem_cons.2 ⟨hbefore,
    List.forall_mem_append.2 ⟨h, List.forall_mem_singleton.2 hafter⟩⟩

/-- **Where values are well formed**: all through a run, and in whatever maps
are made of. -/
structure Program.StaysWellFormed {σ : Type} (p : Program) (host : Host σ)
    (globals : Bindings Value) (input : Value) (w : World σ) : Prop where
  /-- To take notes makes no difference to the run. -/
  noted :
    ((p.notedRun host globals input w).result,
      (p.notedRun host globals input w).world)
      = (p.run host globals input).run w
  /-- Whatever a task is given, whatever comes of it, all that the branches
  hold before it and after it, and all that is put aside. -/
  notes : ∀ note ∈ (p.notedRun host globals input w).notes, ∀ v ∈ note.values,
    v.WellFormed
  output : ∀ r, ((p.run host globals input).run w).1 = some r →
    r.output.WellFormed

/-- **All values of a run are well formed** if the input and the globals are.
The second and the third part are about maps outside of runs: a map that was
made by any history of changes is well formed if the values put into it are,
and so is the value of a JSON text whose objects have distinct names. -/
theorem Program.run_wellFormed {σ : Type} (p : Program) (host : Host σ)
    {globals : Bindings Value} (hglobals : ∀ g ∈ globals, g.2.WellFormed)
    {input : Value} (hinput : input.WellFormed) (w : World σ) :
    p.StaysWellFormed host globals input w ∧
      (∀ changes : List MapChange,
        (∀ change ∈ changes, change.value.WellFormed) →
        (Value.map (MapChange.applyAll changes)).WellFormed) ∧
      ∀ j : Json, j.Distinct → (Value.ofJson j).WellFormed := by
  obtain ⟨hsame, hnotes, houtput⟩ :=
    p.notedRun_accounts host Keeps.wellFormed (Account.forall_values WellFormed)
      hglobals hinput w
  refine ⟨⟨hsame, hnotes, fun r hr => houtput r ?_⟩,
    fun _ => MapChange.wellFormed_applyAll, fun _ => Value.wellFormed_ofJson⟩
  rw [← hsame] at hr
  exact hr

/-- Groups the elements of the stream by themselves. -/
def groupProgram : Program :=
  ⟨[⟨.step (.act (.scope { kind := .pivot })), 0, 0, 1⟩,
    ⟨.step (.act (.eval .stream)), 1, 1, 2⟩]⟩

/-- What is no number, as a key twice over. Such keys are equal to none,
themselves included, so that a map that holds them both is well formed. -/
def unequalKeys : Value :=
  .map [(.number (0 / 0), .text "a"), (.number (0 / 0), .text "b"),
    (.truth true, .array [])]

theorem wellFormed_unequalKeys : unequalKeys.WellFormed := by
  refine .map ?_ ?_
  · show List.Pairwise _ _
    simp only [List.pairwise_cons, List.forall_mem_cons, List.not_mem_nil,
      false_implies, implies_true, and_true, List.Pairwise.nil]
    decide +kernel
  · simp only [List.forall_mem_cons, List.not_mem_nil, false_implies,
      implies_true, and_true]
    exact ⟨.text "a", .text "b", .array (List.forall_mem_nil _)⟩

theorem groupProgram_stays_wellFormed :
    let globals := [("seen", unequalKeys)]
    let input : Value :=
      .array [.number 0, .number (-0), .number (0 / 0), .number (0 / 0)]
    (∀ g ∈ globals, g.2.WellFormed) ∧ input.WellFormed ∧
      groupProgram.StaysWellFormed (Host.none Unit) globals input
      { host := () } := by
  have hglobals : ∀ g ∈ [("seen", unequalKeys)], g.2.WellFormed :=
    List.forall_mem_singleton.2 wellFormed_unequalKeys
  have hinput :
      WellFormed
      (.array [.number 0, .number (-0), .number (0 / 0), .number (0 / 0)]) := by
    refine .array ?_
    simp only [List.forall_mem_cons, List.not_mem_nil, false_implies,
      implies_true, and_true]
    exact ⟨.number _, .number _, .number _, .number _⟩
  exact ⟨hglobals, hinput,
    (groupProgram.run_wellFormed (Host.none Unit) hglobals hinput _).1⟩

end StreamScript
