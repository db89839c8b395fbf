import StreamScript.Run.Fold

/-!
# Sorting makes nothing up

Whatever the comparisons say, and also if they contradict one another, the
elements that come out of sorting have gone into it. What all elements have in
common is carried along (`Leaves`): each way of sorting takes lists apart, puts
lists together, and asks for comparisons whose outcome does not matter here.

That elements are not lost is another matter. It holds where the comparisons
are an order, and is then a consequence of there being but one way to sort.
Without one it may fail, and nothing said here excludes that.
-/

namespace StreamScript.Sort

variable {ε α β : Type} {P : α → Prop} {less : α → α → Except ε Bool}

/-- **Sorting that leaves something with a property**, whatever has failed
before. -/
def Leaves (Q : β → Prop) (x : Sorting ε β) : Prop :=
  ∀ failure, Q (x.run failure).1

namespace Leaves

variable {γ : Type} {Q : β → Prop} {R : γ → Prop}

theorem pure {b : β} (h : Q b) : Leaves Q (Pure.pure b : Sorting ε β) :=
  fun _ => h

/-- What a step leaves is at hand in the next one. -/
theorem bind {x : Sorting ε β} {f : β → Sorting ε γ} (hx : Leaves Q x)
    (hf : ∀ b, Q b → Leaves R (f b)) : Leaves R (x >>= f) :=
  fun failure => hf _ (hx failure) _

/-- Of some results nothing need be known. -/
theorem after (x : Sorting ε β) {f : β → Sorting ε γ}
    (hf : ∀ b, Leaves R (f b)) :
    Leaves R (x >>= f) :=
  fun _ => hf _ _

end Leaves

/-! ## Insertion

An element is put somewhere among others, so the list that comes out has the
element and the others in it and nothing else. The lists are held in reverse in
between, which changes nothing about their members. -/

/-- An element is placed among others, -/
theorem leaves_place {x : α} (hx : P x) {ys : List α} (hys : ∀ y ∈ ys, P y) :
    Leaves (fun zs => ∀ z ∈ zs, P z) (place less x ys) := by
  induction ys with
  | nil => exact .pure (List.forall_mem_singleton.2 hx)
  | cons y ys ih =>
    obtain ⟨hy, hrest⟩ := List.forall_mem_cons.1 hys
    refine .after _ fun b => ?_
    split
    · exact (ih hrest).bind fun _ h => .pure (List.forall_mem_cons.2 ⟨hy, h⟩)
    · exact .pure (List.forall_mem_cons.2 ⟨hx, hys⟩)

/-- and one after the other all of them are. -/
theorem leaves_placeAll {sorted xs : List α} (hsorted : ∀ x ∈ sorted, P x)
    (hxs : ∀ x ∈ xs, P x) :
    Leaves (fun zs => ∀ z ∈ zs, P z) (placeAll less sorted xs) := by
  induction xs generalizing sorted with
  | nil => exact .pure hsorted
  | cons x xs ih =>
    obtain ⟨hx, hrest⟩ := List.forall_mem_cons.1 hxs
    exact (leaves_place hx hsorted).bind fun _ h => ih h hrest

/-- Turning a list around changes nothing about its members. -/
theorem forall_mem_reverse {xs : List α} (h : ∀ x ∈ xs, P x) :
    ∀ x ∈ xs.reverse, P x :=
  fun x hx => h x (List.mem_reverse.1 hx)

/-- So sorting by insertion leaves the elements of the list. -/
theorem leaves_insertionSort {xs : List α} (hxs : ∀ x ∈ xs, P x) :
    Leaves (fun zs => ∀ z ∈ zs, P z) (insertionSort less xs) :=
  (leaves_placeAll nofun hxs).bind fun _ h => .pure (forall_mem_reverse h)

/-! ## Merging

Merging takes elements from two lists until both are used up. Merging from both
ends at once takes every element from either of two copies of the same lists,
and stops after so many steps whether or not the ends have met. What is left
over is handed on, and if one element is missing in the middle it is taken from
there. So all five lists that come out have to be followed. -/

/-- Merging from the front takes the first of one list or of the other, and
what remains of a list when the other is used up. -/
theorem leaves_mergeFront {xs ys : List α} (hxs : ∀ x ∈ xs, P x)
    (hys : ∀ y ∈ ys, P y) :
    Leaves (fun zs => ∀ z ∈ zs, P z) (mergeFront less xs ys) := by
  fun_induction mergeFront less xs ys with
  | case1 => exact .pure hys
  | case2 => exact .pure hxs
  | case3 x xs y ys ih₁ ih₂ =>
    obtain ⟨hx, hxs'⟩ := List.forall_mem_cons.1 hxs
    obtain ⟨hy, hys'⟩ := List.forall_mem_cons.1 hys
    refine .after _ fun b => ?_
    split
    · exact (ih₁ hxs hys').bind fun _ h =>
        .pure (List.forall_mem_cons.2 ⟨hy, h⟩)
    · exact (ih₂ hxs' hys).bind fun _ h =>
        .pure (List.forall_mem_cons.2 ⟨hx, h⟩)

/-- Merging from the back does the same with lists that are turned around.
Which of two equal elements it takes is different, but not where they come
from. -/
theorem leaves_mergeBack {xs ys : List α} (hxs : ∀ x ∈ xs, P x)
    (hys : ∀ y ∈ ys, P y) :
    Leaves (fun zs => ∀ z ∈ zs, P z) (mergeBack less xs ys) := by
  fun_induction mergeBack less xs ys with
  | case1 => exact .pure hys
  | case2 => exact .pure hxs
  | case3 x xs y ys ih₁ ih₂ =>
    obtain ⟨hx, hxs'⟩ := List.forall_mem_cons.1 hxs
    obtain ⟨hy, hys'⟩ := List.forall_mem_cons.1 hys
    refine .after _ fun b => ?_
    split
    · exact (ih₁ hxs' hys).bind fun _ h =>
        .pure (List.forall_mem_cons.2 ⟨hx, h⟩)
    · exact (ih₂ hxs hys').bind fun _ h =>
        .pure (List.forall_mem_cons.2 ⟨hy, h⟩)

/-- A merge goes from the front or from the back, and the list that it goes by
from the back is turned around before and after. -/
theorem leaves_merge {xs ys : List α} (hxs : ∀ x ∈ xs, P x)
    (hys : ∀ y ∈ ys, P y) :
    Leaves (fun zs => ∀ z ∈ zs, P z) (merge less xs ys) := by
  unfold merge
  split
  · exact leaves_mergeFront hxs hys
  · exact (leaves_mergeBack (forall_mem_reverse hxs) (forall_mem_reverse hys)).bind
      fun _ h => .pure (forall_mem_reverse h)

/-- What is taken from one of the ends is a member of either list, and what is
left are members of them. -/
theorem leaves_takeOne (back : Bool) {xs ys : List α} (hxs : ∀ x ∈ xs, P x)
    (hys : ∀ y ∈ ys, P y) :
    Leaves (fun taken => (∀ z ∈ taken.1.toList, P z) ∧ (∀ z ∈ taken.2.1, P z) ∧
      ∀ z ∈ taken.2.2, P z) (takeOne less back xs ys) := by
  unfold takeOne
  split
  · next x xs y ys =>
    obtain ⟨hx, hxs'⟩ := List.forall_mem_cons.1 hxs
    obtain ⟨hy, hys'⟩ := List.forall_mem_cons.1 hys
    refine .after _ fun swapped => .pure ?_
    split
    · exact ⟨List.forall_mem_singleton.2 hy, hxs, hys'⟩
    · exact ⟨List.forall_mem_singleton.2 hx, hxs', hys⟩
  · obtain ⟨hx, hxs'⟩ := List.forall_mem_cons.1 hxs
    exact .pure ⟨List.forall_mem_singleton.2 hx, hxs', nofun⟩
  · obtain ⟨hy, hys'⟩ := List.forall_mem_cons.1 hys
    exact .pure ⟨List.forall_mem_singleton.2 hy, nofun, hys'⟩
  · exact .pure ⟨nofun, nofun, nofun⟩

/-- The ends that a merge from both ends has got, and what is left of the
halves. What is left of the halves at the back is not spoken of: only its
length is looked at. -/
theorem leaves_mergeEnds {xs ys xsBack ysBack front back : List α}
    (hxs : ∀ x ∈ xs, P x) (hys : ∀ y ∈ ys, P y) (hxsBack : ∀ x ∈ xsBack, P x)
    (hysBack : ∀ y ∈ ysBack, P y) (hfront : ∀ x ∈ front, P x)
    (hback : ∀ x ∈ back, P x) (n : Nat) :
    Leaves (fun (front, back, xs, ys, _) => (∀ z ∈ front, P z) ∧
      (∀ z ∈ back, P z) ∧
      (∀ z ∈ xs, P z) ∧ ∀ z ∈ ys, P z)
      (mergeEnds less xs ys xsBack ysBack front back n) := by
  induction n generalizing xs ys xsBack ysBack front back with
  | zero => exact .pure ⟨forall_mem_reverse hfront, hback, hxs, hys⟩
  | succ n ih =>
    refine (leaves_takeOne false hxs hys).bind
      fun (first, xs, ys) ⟨hfirst, hxs, hys⟩ => ?_
    refine (leaves_takeOne true hxsBack hysBack).bind
      fun (last, xsBack, ysBack) ⟨hlast, hxsBack, hysBack⟩ => ?_
    exact ih hxs hys hxsBack hysBack (List.forall_mem_append.2 ⟨hfirst, hfront⟩)
      (List.forall_mem_append.2 ⟨hlast, hback⟩)

/-- What is merged from both ends has been taken from one of the halves. In a
list of odd length one element is left between the ends, from either half. -/
theorem leaves_mergeHalves {xs ys : List α} (hxs : ∀ x ∈ xs, P x)
    (hys : ∀ y ∈ ys, P y) :
    Leaves (fun zs => ∀ z ∈ zs, P z) (mergeHalves less xs ys) := by
  have none : ∀ x ∈ ([] : List α), P x := nofun
  refine (leaves_mergeEnds hxs hys (forall_mem_reverse hxs)
    (forall_mem_reverse hys) none none _).bind
    fun (front, back, xsLeft, ysLeft, xsBack) ⟨hfront, hback, hxsLeft,
      hysLeft⟩ => .pure ?_
  have head : ∀ {zs : List α}, (∀ z ∈ zs, P z) → ∀ z ∈ zs.head?.toList, P z :=
    fun h z hz => h z (List.mem_of_mem_head? (Option.mem_toList.1 hz))
  split
  · exact List.forall_mem_append.2 ⟨hfront, hback⟩
  · refine List.forall_mem_append.2
      ⟨List.forall_mem_append.2 ⟨hfront, ?_⟩, hback⟩
    split
    · exact head hxsLeft
    · exact head hysLeft

/-! ## Short lists

Short lists are sorted in halves. A half begins with four sorted elements, if
there are as many, and the others are put in their places behind them. -/

/-- Four elements are sorted by five comparisons. Whatever these say, the two
extremes and the two in the middle are each one of the elements. -/
theorem leaves_sortFour {p q r s : α} (hp : P p) (hq : P q) (hr : P r)
    (hs : P s) :
    Leaves (fun zs => ∀ z ∈ zs, P z) (sortFour less p q r s) := by
  have either : ∀ (b : Bool) {x y : α}, P x → P y → P (if b then x else y) := by
    intro b x y hx hy
    split
    · exact hx
    · exact hy
  unfold sortFour
  refine .after _ fun swapFirst => .after _ fun swapLast => ?_
  have hab : P (if swapFirst then (q, p) else (p, q)).1 ∧
      P (if swapFirst then (q, p) else (p, q)).2 := by
    cases swapFirst
    · exact ⟨hp, hq⟩
    · exact ⟨hq, hp⟩
  have hcd : P (if swapLast then (s, r) else (r, s)).1 ∧
      P (if swapLast then (s, r) else (r, s)).2 := by
    cases swapLast
    · exact ⟨hr, hs⟩
    · exact ⟨hs, hr⟩
  revert hab hcd
  generalize (if swapFirst then (q, p) else (p, q)) = ab
  generalize (if swapLast then (s, r) else (r, s)) = cd
  rintro ⟨ha, hb⟩ ⟨hc, hd⟩
  refine .after _ fun lowRight => .after _ fun highLeft =>
    .after _ fun swapMiddle => .pure ?_
  have hlow := either lowRight hc ha
  have hhigh := either highLeft hb hd
  have hleft := either lowRight ha (either highLeft hc hb)
  have hright := either highLeft hd (either lowRight hb hc)
  split
  · simp only [List.forall_mem_cons]
    exact ⟨hlow, hright, hleft, hhigh, nofun⟩
  · simp only [List.forall_mem_cons]
    exact ⟨hlow, hleft, hright, hhigh, nofun⟩

/-- A half begins with four sorted elements if there are enough of them, and
with nothing otherwise. The others are still to be placed. -/
theorem leaves_startHalf (whole : Nat) {xs : List α} (hxs : ∀ x ∈ xs, P x) :
    Leaves (fun half => (∀ z ∈ half.1, P z) ∧ ∀ z ∈ half.2, P z)
      (startHalf less whole xs) := by
  unfold startHalf
  split
  · next p q r s rest =>
    split
    · exact .pure ⟨nofun, hxs⟩
    · simp only [List.forall_mem_cons] at hxs
      obtain ⟨hp, hq, hr, hs, hrest⟩ := hxs
      exact (leaves_sortFour hp hq hr hs).bind fun _ h =>
        .pure ⟨forall_mem_reverse h, hrest⟩
  · exact .pure ⟨nofun, hxs⟩

/-- A short list is cut in two, the halves are sorted, and then merged from
both ends. -/
theorem leaves_shortSort {xs : List α} (hxs : ∀ x ∈ xs, P x) :
    Leaves (fun zs => ∀ z ∈ zs, P z) (shortSort less xs) := by
  have htake : ∀ n, ∀ x ∈ xs.take n, P x :=
    fun n x hx => hxs x (List.mem_of_mem_take hx)
  have hdrop : ∀ n, ∀ x ∈ xs.drop n, P x :=
    fun n x hx => hxs x (List.mem_of_mem_drop hx)
  unfold shortSort
  rw [List.splitAt_eq]
  refine (leaves_startHalf xs.length (htake _)).bind fun first hfirst => ?_
  refine (leaves_startHalf xs.length (hdrop _)).bind fun second hsecond => ?_
  refine (leaves_placeAll hfirst.1 hfirst.2).bind fun first hfirst => ?_
  refine (leaves_placeAll hsecond.1 hsecond.2).bind fun second hsecond => ?_
  exact leaves_mergeHalves (forall_mem_reverse hfirst)
    (forall_mem_reverse hsecond)

/-! ## Runs

A run is a stretch of the list, turned around, sorted or left as it is, and
runs are merged with their neighbours until there is one. Of the runs that wait
on the stack, all elements have the property, and that is what the induction
carries. -/

/-- A run is cut off the front, reversed if it goes down. -/
theorem leaves_takeRun (eager : Bool) (long : Nat) {xs : List α}
    (hxs : ∀ x ∈ xs, P x) :
    Leaves (fun taken => (∀ z ∈ taken.1.items, P z) ∧ ∀ z ∈ taken.2, P z)
      (takeRun less eager long xs) := by
  have htake : ∀ n, ∀ x ∈ xs.take n, P x :=
    fun n x hx => hxs x (List.mem_of_mem_take hx)
  have hdrop : ∀ n, ∀ x ∈ xs.drop n, P x :=
    fun n x hx => hxs x (List.mem_of_mem_drop hx)
  have hlength : ∀ {β} {Q : β → Prop} {f : Nat × Bool → Sorting ε β},
      (∀ found, Leaves Q (f found)) →
        Leaves Q (if long ≤ xs.length then runLength less xs >>= f
        else Pure.pure (0, false) >>= f) := by
    intro β Q f hf
    split
    · exact .after _ hf
    · exact hf _
  refine hlength fun found => ?_
  dsimp only
  split
  · refine .pure ⟨?_, hdrop found.1⟩
    dsimp only
    split
    · exact forall_mem_reverse (htake found.1)
    · exact htake found.1
  · split
    · exact (leaves_shortSort (htake _)).bind fun _ h => .pure ⟨h, hdrop _⟩
    · exact .pure ⟨htake long, hdrop long⟩

variable {sort : List α → Sorting ε (List α)}

/-- Two runs are merged, each being sorted before if it is not, or left side by
side. -/
theorem leaves_mergeRuns
    (hsort : ∀ {xs}, (∀ x ∈ xs, P x) → Leaves (fun zs => ∀ z ∈ zs, P z)
      (sort xs))
    {left right : Run α} (hleft : ∀ x ∈ left.items, P x)
    (hright : ∀ x ∈ right.items, P x) :
    Leaves (fun run => ∀ z ∈ run.items, P z)
    (mergeRuns less sort left right) := by
  have hrun : ∀ {β} {Q : β → Prop} {f : List α → Sorting ε β} (run : Run α),
      (∀ x ∈ run.items, P x) → (∀ xs, (∀ x ∈ xs, P x) → Leaves Q (f xs)) →
      Leaves Q (if run.sorted then Pure.pure run.items >>= f
        else sort run.items >>= f) := by
    intro β Q f run hitems hf
    split
    · exact (Leaves.pure hitems).bind hf
    · exact (hsort hitems).bind hf
  unfold mergeRuns
  split
  · refine hrun left hleft fun xs hxs => hrun right hright fun ys hys => ?_
    exact (leaves_merge hxs hys).bind fun _ h => .pure h
  · exact .pure (List.forall_mem_append.2 ⟨hleft, hright⟩)

/-- Runs that lie below are merged into the one on top, one by one. -/
theorem leaves_mergeBelow
    (hsort : ∀ {xs}, (∀ x ∈ xs, P x) → Leaves (fun zs => ∀ z ∈ zs, P z)
      (sort xs)) (depth : Nat)
    {before : List (Run α × Nat)}
    (hbefore : ∀ entry ∈ before, ∀ x ∈ entry.1.items, P x) {run : Run α}
    (hrun : ∀ x ∈ run.items, P x) :
    Leaves (fun below => (∀ entry ∈ below.1, ∀ x ∈ entry.1.items, P x) ∧
      ∀ x ∈ below.2.items, P x) (mergeBelow less sort depth before run) := by
  induction before generalizing run with
  | nil => exact .pure ⟨nofun, hrun⟩
  | cons entry before ih =>
    obtain ⟨hentry, hrest⟩ := List.forall_mem_cons.1 hbefore
    unfold mergeBelow
    split
    · exact (leaves_mergeRuns hsort hentry hrun).bind fun _ h => ih hrest h
    · exact .pure ⟨hbefore, hrun⟩

/-- Taking runs to the end of a list. The induction is on the length of what is
left of the list: a run that takes something makes it shorter, and the
recursion stops if one takes nothing. -/
theorem leaves_mergeOn
    (hsort : ∀ {xs}, (∀ x ∈ xs, P x) → Leaves (fun zs => ∀ z ∈ zs, P z)
      (sort xs)) (eager : Bool)
    (n : Nat) {before : List (Run α × Nat)}
    (hbefore : ∀ entry ∈ before, ∀ x ∈ entry.1.items, P x) {last : Run α}
    (hlast : ∀ x ∈ last.items, P x) (stop : Nat) {xs : List α}
    (hxs : ∀ x ∈ xs, P x) :
    Leaves (fun run => ∀ z ∈ run.items, P z)
    (mergeOn less eager sort n before last stop xs) := by
  induction hk : xs.length
    using Nat.strongRecOn generalizing before last stop xs with
  | _ k ih =>
    unfold mergeOn
    split
    · exact (leaves_mergeBelow hsort 0 hbefore hlast).bind fun _ h => .pure h.2
    · refine (leaves_takeRun eager _ hxs).bind fun (run, rest) ⟨hrun, hrest⟩ =>
        ?_
      refine (leaves_mergeBelow hsort _ hbefore hlast).bind
        fun (before, merged) ⟨hbefore, hmerged⟩ => ?_
      dsimp only
      split
      · next hlt =>
        exact ih _ (hk ▸ hlt) (List.forall_mem_cons.2 ⟨hmerged, hbefore⟩) hrun
          _ hrest rfl
      · exact .pure hmerged

/-- Sorting by runs may leave one run that nobody has sorted yet, and then the
other way of sorting is asked for it. -/
theorem leaves_runSort
    (hsort : ∀ {xs}, (∀ x ∈ xs, P x) → Leaves (fun zs => ∀ z ∈ zs, P z)
      (sort xs)) (eager : Bool)
    {xs : List α} (hxs : ∀ x ∈ xs, P x) :
    Leaves (fun zs => ∀ z ∈ zs, P z) (runSort less eager sort xs) := by
  refine (leaves_takeRun eager _ hxs).bind fun (run, rest) ⟨hrun, hrest⟩ => ?_
  have none : ∀ entry ∈ ([] : List (Run α × Nat)), ∀ x ∈ entry.1.items,
      P x := nofun
  refine (leaves_mergeOn hsort eager _ none hrun _ hrest).bind
    fun whole hwhole => ?_
  split
  · exact .pure hwhole
  · exact hsort hwhole

/-! ## Partition

A list is split by a test. Every element goes to one side or the other,
whatever the test says of it, and the pivot goes to the side it is told to go
to. -/

/-- By induction on the list, with the test asked of one element after the
other. -/
theorem leaves_splitBy (test : α → Sorting ε Bool) {xs : List α}
    (hxs : ∀ x ∈ xs, P x) :
    Leaves (fun parts => (∀ z ∈ parts.1, P z) ∧ ∀ z ∈ parts.2, P z)
    (splitBy test xs) := by
  induction xs with
  | nil => exact .pure ⟨nofun, nofun⟩
  | cons x xs ih =>
    obtain ⟨hx, hrest⟩ := List.forall_mem_cons.1 hxs
    refine .after _ fun left => (ih hrest).bind fun (ls, rs) ⟨hls, hrs⟩ =>
      .pure ?_
    split
    · exact ⟨List.forall_mem_cons.2 ⟨hx, hls⟩, hrs⟩
    · exact ⟨hls, List.forall_mem_cons.2 ⟨hx, hrs⟩⟩

/-- The pivot goes to one side, and the others are split around it. -/
theorem leaves_splitAround (test : α → Sorting ε Bool) (pivotLeft : Bool)
    {before after : List α} {pivot : α} (hbefore : ∀ x ∈ before, P x)
    (hpivot : P pivot) (hafter : ∀ x ∈ after, P x) :
    Leaves (fun parts => (∀ z ∈ parts.1, P z) ∧ ∀ z ∈ parts.2, P z)
      (splitAround test pivotLeft before pivot after) := by
  refine (leaves_splitBy test hbefore).bind fun (ls, rs) ⟨hls, hrs⟩ => ?_
  refine (leaves_splitBy test hafter).bind fun (ls', rs') ⟨hls', hrs'⟩ =>
    .pure ?_
  split
  · exact ⟨List.forall_mem_append.2 ⟨hls, List.forall_mem_cons.2 ⟨hpivot, hls'⟩⟩,
      List.forall_mem_append.2 ⟨hrs, hrs'⟩⟩
  · exact ⟨List.forall_mem_append.2 ⟨hls, hls'⟩,
      List.forall_mem_append.2 ⟨hrs, List.forall_mem_cons.2 ⟨hpivot, hrs'⟩⟩⟩

/-- Sorting by partition: the induction is on how many partitions are left, and
the property is handed on to both parts. The pivot is one of the elements, and
an ancestor is only compared with. -/
theorem leaves_partitionSort (limit : Nat) (ancestor : Option α) {xs : List α}
    (hxs : ∀ x ∈ xs, P x) :
    Leaves (fun zs => ∀ z ∈ zs, P z)
    (partitionSort less limit ancestor xs) := by
  induction limit generalizing ancestor xs with
  | zero =>
    unfold partitionSort
    split
    · exact leaves_shortSort hxs
    · exact leaves_runSort (fun h => .pure h) true hxs
  | succ limit ih =>
    unfold partitionSort
    split
    · exact leaves_shortSort hxs
    · refine .after _ fun p => ?_
      split
      · exact .pure hxs
      · next pivot after hdrop =>
        have hbefore : ∀ x ∈ xs.take p, P x :=
          fun x hx => hxs x (List.mem_of_mem_take hx)
        have hrest : ∀ x ∈ pivot :: after, P x := fun x hx =>
          hxs x (List.mem_of_mem_drop (hdrop ▸ hx))
        obtain ⟨hpivot, hafter⟩ := List.forall_mem_cons.1 hrest
        have hends : ∀ parts : List α × List α, (∀ x ∈ parts.1, P x) ∧
            (∀ x ∈ parts.2, P x) →
            Leaves (fun zs => ∀ z ∈ zs, P z) (if parts.1.isEmpty then do
              let halves ← splitAround (fun x => do
                let behind ← isBefore less pivot x
                return !behind) true (xs.take p) pivot after
              let right ← partitionSort less limit none halves.2
              return halves.1 ++ right
            else do
              let right ← partitionSort less limit (some pivot) parts.2
              let left ← partitionSort less limit ancestor parts.1
              return left ++ right) := by
          intro parts ⟨hleft, hright⟩
          split
          · exact (leaves_splitAround _ _ hbefore hpivot hafter).bind
              fun _ halves =>
              (ih none halves.2).bind fun _ h =>
              .pure (List.forall_mem_append.2 ⟨halves.1, h⟩)
          · exact (ih (some pivot) hright).bind fun _ hright =>
              (ih ancestor hleft).bind fun _ hleft =>
                .pure (List.forall_mem_append.2 ⟨hleft, hright⟩)
        have hsplit :
            ∀ {f : List α × List α → Sorting ε (List α)} (least : Bool),
            (∀ parts, (∀ x ∈ parts.1, P x) ∧ (∀ x ∈ parts.2, P x) →
              Leaves (fun zs => ∀ z ∈ zs, P z) (f parts)) →
            Leaves (fun zs => ∀ z ∈ zs, P z) (if least = true then
              splitAround (isBefore less · pivot) false (xs.take p) pivot
                after >>= f
              else Pure.pure ([], xs) >>= f) := by
          intro f least hf
          split
          · exact (leaves_splitAround _ _ hbefore hpivot hafter).bind hf
          · exact hf ([], xs) ⟨nofun, hxs⟩
        split
        · exact .after _ fun least => hsplit least hends
        · exact .after _ fun least => hsplit least hends

/-- **What sorting leaves** has gone into it. -/
theorem leaves_sort {xs : List α} (hxs : ∀ x ∈ xs, P x) :
    Leaves (fun zs => ∀ z ∈ zs, P z) (Sort.sort less xs) :=
  leaves_runSort (fun h => leaves_partitionSort _ none h) _ hxs

end StreamScript.Sort

namespace StreamScript

/-- **Sorted elements** are those that were to be sorted. If their results have
an order this is a fact about sorting in the library, and otherwise what the
steps leave. -/
theorem Yield.mem_of_mem_sort {yields sorted : List Yield}
    (h : Yield.sort yields = .ok sorted) :
    ∀ y ∈ sorted, y ∈ yields := by
  have hleaves : Sort.Leaves (fun zs => ∀ z ∈ zs, z ∈ yields)
      (if yields.length ≤ few then Sort.insertionSort isBefore yields
        else Sort.sort isBefore yields) := by
    split
    · exact Sort.leaves_insertionSort fun _ hx => hx
    · exact Sort.leaves_sort fun _ hx => hx
  unfold Yield.sort Yield.sortBySteps at h
  split at h
  · obtain rfl := Except.ok.inj h
    exact fun y hy => List.mem_mergeSort.1 hy
  · dsimp only at h
    split at h
    · cases h
    · next zs hrun =>
      obtain rfl := Except.ok.inj h
      have := hleaves none
      rwa [hrun] at this

end StreamScript
