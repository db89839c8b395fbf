import StreamScript.Proofs.ValueOrder

/-!
# Sorting keeps the order of equals

When the results of a block hold no map, and no number that is none, their
order is one, and sorting by it cannot fail. Numbering the elements as they
came says what becomes of them: the sorted list holds the numbered elements
once each, and of two of them the first has the smaller result, or an equal one
and the smaller number.

The order is one on the results at hand only, and not on all values. So what is
known about sorting by an order is first brought to a list whose elements are
ordered by it (`exists_numbered_mergeSort`).
-/

namespace StreamScript

/-! ## Sorting by an order of the elements at hand

A relation is known to be an order only on the elements of the list. They are
numbered, and the sort of the library is asked for elements that carry a proof
of being in the list; on these the relation is an order, and what is known
about sorting applies. -/

section

variable {α : Type} (le : α → α → Bool) (l : List α)

/-- **Sorting a numbered list.** If a relation is an order of the elements of a
list, the list is sorted by it with ties broken by number. -/
theorem exists_numbered_mergeSort
    (htrans : ∀ a ∈ l, ∀ b ∈ l, ∀ c ∈ l, le a b → le b c → le a c)
    (htotal : ∀ a ∈ l, ∀ b ∈ l, le a b || le b a) :
    ∃ sorted : List (α × Nat), l.mergeSort le = sorted.map Prod.fst ∧
      sorted.Perm l.zipIdx ∧
      sorted.Pairwise (List.zipIdxLE le · ·) := by
  let leHere : { a // a ∈ l } → { a // a ∈ l } → Bool := fun a b => le a b
  let bare : { a // a ∈ l } × Nat → α × Nat := Prod.map Subtype.val id
  have htransHere : ∀ a b c, leHere a b → leHere b c → leHere a c :=
    fun a b c => htrans a a.2 b b.2 c c.2
  have htotalHere : ∀ a b, leHere a b || leHere b a :=
    fun a b => htotal a a.2 b b.2
  have hsorted := List.pairwise_mergeSort (List.zipIdxLE_trans htransHere)
    (List.zipIdxLE_total htotalHere) l.attach.zipIdx
  refine ⟨(l.attach.zipIdx.mergeSort (List.zipIdxLE leHere)).map bare, ?_, ?_,
    List.pairwise_map.2 hsorted⟩
  · calc l.mergeSort le
      _ = (l.attach.map Subtype.val).mergeSort le := by
        rw [List.attach_map_subtype_val]
      _ = (l.attach.mergeSort leHere).map Subtype.val :=
        (List.map_mergeSort (f := Subtype.val) fun _ _ _ _ => rfl).symm
      _ = ((l.attach.zipIdx.mergeSort (List.zipIdxLE leHere)).map Prod.fst).map
          Subtype.val := by
        rw [List.mergeSort_zipIdx]
      _ = _ := by rw [List.map_map, List.map_map]; rfl
  · have hbare : l.attach.zipIdx.map bare = l.zipIdx := by
      rw [← List.zipIdx_map, List.attach_map_subtype_val]
    exact hbare ▸ (List.mergeSort_perm ..).map bare

end

/-! ## Results with an order

That an element stays in front of another is asked of their results only. On
results without maps and without numbers that are none this is transitive and
total by the laws of the order of values. With maps a comparison may fail, and
with numbers that are none it is no order; what sorting does then is said
elsewhere. -/

namespace Value

variable {a : Value}

/-- All elements of a list are looked at. -/
theorem areOrderly_of_forall {items : List Value}
    (h : ∀ v ∈ items, v.isOrderly = true) :
    areOrderly items = true := by
  induction items with
  | nil => rfl
  | cons v items ih =>
    obtain ⟨hv, hrest⟩ := List.forall_mem_cons.1 h
    rw [areOrderly, hv, ih hrest, Bool.and_self]

/-- What is over the numbers that are ones is covered by the order. -/
theorem Over.isOrderly (h : a.Over fun x => x.isNaN = false) :
    a.isOrderly = true := by
  induction h with
  | text _ | truth _ => rfl
  | number hx => exact congrArg (!·) hx
  | array _ ih => exact areOrderly_of_forall ih

end Value

namespace Yield

/-- **One numbered element goes before another**: its result is smaller, or
equal and it came first. -/
def Precedes (x y : Yield × Nat) : Prop :=
  ∃ o, x.1.result.compare y.1.result = .ok o ∧ (o = .lt ∨ o = .eq ∧ x.2 < y.2)

/-- An element whose result holds no map, and no number that is none. -/
def Ordered (y : Yield) : Prop :=
  y.result.Over fun x => x.isNaN = false

variable {x y z : Yield}

/-- **An element stays in front** of those whose results are not smaller. -/
theorem staysBefore_iff {o : Ordering}
    (h : y.result.compare x.result = .ok o.swap) :
    x.staysBefore y = true ↔ o ≠ .gt := by
  rw [staysBefore, isBefore, h]
  cases o <;> decide

/-- The results of ordered elements can be compared, and what stays in front is
read off the answer. -/
theorem Ordered.exists_compare (hx : x.Ordered) (hy : y.Ordered) :
    ∃ o, x.result.compare y.result = .ok o ∧
      (x.staysBefore y = true ↔ o ≠ .gt) ∧
      (y.staysBefore x = true ↔ o.swap ≠ .gt) := by
  obtain ⟨o, hxy, hyx⟩ := Value.exists_compare hx.mapFree hy.mapFree
  exact ⟨o, hxy, staysBefore_iff hyx, staysBefore_iff (o.swap_swap.symm ▸ hxy)⟩

/-- To stay in front is transitive, -/
theorem Ordered.staysBefore_trans (hx : x.Ordered) (hy : y.Ordered)
    (hz : z.Ordered) (hxy : x.staysBefore y = true)
    (hyz : y.staysBefore z = true) : x.staysBefore z = true := by
  obtain ⟨o, ho, hstays, -⟩ := hx.exists_compare hy
  obtain ⟨p, hp, hstays', -⟩ := hy.exists_compare hz
  obtain ⟨q, hq, hstays'', -⟩ := hx.exists_compare hz
  have hchained :=
    Value.Chains.of_over (fun _ _ _ => Value.chained_compareNumbers) hx hy hz
  exact hstays''.2
    ((hchained o p q ho hp hq).ne_gt (hstays.1 hxy) (hstays'.1 hyz))

/-- and of two elements one stays in front. -/
theorem Ordered.staysBefore_total (hx : x.Ordered) (hy : y.Ordered) :
    x.staysBefore y || y.staysBefore x := by
  obtain ⟨o, -, hxy, hyx⟩ := hx.exists_compare hy
  rw [Bool.or_eq_true, hxy, hyx]
  cases o <;> simp

/-- What is sorted with ties broken by number goes before, if the numbers
differ. -/
theorem Ordered.precedes {i j : Nat} (hx : x.Ordered) (hy : y.Ordered)
    (hne : i ≠ j) (h : List.zipIdxLE staysBefore (x, i) (y, j) = true) :
    Precedes (x, i) (y, j) := by
  obtain ⟨o, ho, hxy, hyx⟩ := hx.exists_compare hy
  refine ⟨o, ho, ?_⟩
  unfold List.zipIdxLE at h
  cases o with
  | lt => exact .inl rfl
  | gt => simp [hxy] at h
  | eq =>
    rw [if_pos (hxy.2 nofun), if_pos (hyx.2 nofun), decide_eq_true_eq] at h
    exact .inr ⟨rfl, Nat.lt_of_le_of_ne h hne⟩

/-- Sorting ordered elements does not fail. -/
theorem sort_of_ordered {yields : List Yield} (h : ∀ y ∈ yields, y.Ordered) :
    Yield.sort yields = .ok (yields.mergeSort staysBefore) :=
  if_pos (List.all_eq_true.2 fun y hy => (h y hy).isOrderly)

end Yield

/-- **Sorting is stable.** If the results hold no map, and no number that is
none, a scope that sorts yields its elements: numbered as they came, once each,
and each before those with a greater result or with an equal one and a greater
number. -/
theorem sortBy_keeps_order_of_equals {yields : List Yield}
    (h : ∀ y ∈ yields, y.Ordered) :
    ∃ sorted : List (Yield × Nat),
      ScopeKind.sortBy.fold yields = .ok (.array (sorted.map (·.1.origin))) ∧
      sorted.Perm yields.zipIdx ∧ sorted.Pairwise Yield.Precedes := by
  obtain ⟨sorted, hmerged, hperm, hsorted⟩ :=
    exists_numbered_mergeSort Yield.staysBefore yields
      (fun x hx y hy z hz => (h x hx).staysBefore_trans (h y hy) (h z hz))
      (fun x hx y hy => (h x hx).staysBefore_total (h y hy))
  have hmem : ∀ x ∈ sorted, x.1.Ordered := fun x hx =>
    h x.1 (List.fst_mem_of_mem_zipIdx (hperm.mem_iff.1 hx))
  have hnumbers : (sorted.map Prod.snd).Nodup := by
    rw [(hperm.map Prod.snd).nodup_iff, List.zipIdx_map_snd]
    exact List.nodup_range'
  refine ⟨sorted, ?_, hperm, ?_⟩
  · rw [ScopeKind.fold, Yield.sort_of_ordered h, hmerged]
    simp only [Except.map, List.map_map, Function.comp_def]
  · refine (hsorted.and (List.pairwise_map.1 hnumbers)).imp_of_mem
      fun hx hy hxy => ?_
    exact (hmem _ hx).precedes (hmem _ hy) hxy.2 hxy.1

/-- Three elements, of which the first and the last have one result. -/
theorem numbers_and_a_truth_keep_order_of_equals :
    ∃ sorted : List (Yield × Nat),
      ScopeKind.sortBy.fold [⟨.number 1, .text "a"⟩, ⟨.truth true, .map []⟩,
          ⟨.number 1, .text "b"⟩] = .ok (.array (sorted.map (·.1.origin))) ∧
      sorted.Perm [(⟨.number 1, .text "a"⟩, 0), (⟨.truth true, .map []⟩, 1),
        (⟨.number 1, .text "b"⟩, 2)] ∧ sorted.Pairwise Yield.Precedes := by
  have hone : (Value.number 1).Over fun x => x.isNaN = false :=
    .number (by decide)
  exact sortBy_keeps_order_of_equals <|
    List.forall_mem_cons.2 ⟨hone,
      List.forall_mem_cons.2 ⟨.truth true, List.forall_mem_singleton.2 hone⟩⟩

end StreamScript
