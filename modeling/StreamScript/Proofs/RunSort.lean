import StreamScript.Proofs.SortMerges
import StreamScript.Proofs.StableSort

/-!
# Sorting by runs sorts

A list of elements that have an order is sorted in the one way that keeps equal
ones in their places, and long lists are sorted by `Sort.sort`, which looks for
runs, merges them, and partitions what is no run around pivots. This module
proves that the two come to the same: where comparisons are an order and do not
fail, sorting by runs does not fail either, and it leaves what the merge sort of
the library leaves (`sort_eq_mergeSort`). So the question whether the results of
a block have an order decides only how they are sorted and not what comes out
(`Yield.sort_eq_sortBySteps`).

Most of the sort need not be looked into for that. Which runs are taken, how
deep they are merged and which elements become pivots decides how many
comparisons are made; all that counts here is that a run is sorted if it is
marked so, that no element is lost between two runs, and that what goes to the
left of a pivot comes before what goes to the right.
-/

namespace StreamScript.Sort

variable {ε α : Type}

section Ways

variable {P : α → Prop} {less : α → α → Except ε Bool} {before : α → α → Bool}
  (h : IsOrder P less before) {xs : List α}
include h

/-! ## Runs

A run that is kept as it stands ascends, or descends strictly and is turned
around. Runs that are yet to be sorted may hold anything; where every run is
sorted as it is taken (`eager`), there are none of these. -/

omit h in
/-- **A run that is what it says**: sorted if it is marked so, and marked so
where every run is. An eager sort sorts a short stretch where it finds no run,
so all its runs are sorted; one that is not eager leaves a stretch as it is and
hands it to `sort` later. -/
structure Run.Right (P : α → Prop) (before : α → α → Bool) (eager : Bool)
    (run : Run α) : Prop where
  mem : ∀ x ∈ run.items, P x
  sorted : run.sorted = true → Sorted before run.items
  marked : eager = true → run.sorted = true

/-- A run goes on the way it began. -/
theorem goes_on {x y z : α} {descending : Bool} (hx : P x) (hy : P y) (hz : P z)
    (hyx : before y x = descending) (hzy : before z y = descending) :
    before z x = descending := by
  cases descending with
  | false => exact h.le_trans hx hy hz hyx hzy
  | true => exact h.trans hz hy hx hzy hyx

/-- How long a run goes on. In a run that ascends no element comes before one
that stands in front of it, and in one that descends every element does. -/
theorem endsIn_runBehind (descending : Bool) {x : α} (hx : P x)
    (hys : ∀ y ∈ ys, P y) :
    EndsIn
      (fun n => (x :: ys.take n).Pairwise fun x y => before y x = descending)
      (runBehind less descending x ys) := by
  induction ys generalizing x with
  | nil => exact .pure (List.pairwise_singleton _ x)
  | cons y ys ih =>
    obtain ⟨hy, hrest⟩ := List.forall_mem_cons.1 hys
    refine (endsIn_isBefore h hy hx).bind fun b hb => ?_
    split
    · next hyx =>
      refine (ih hy hrest).bind fun n hn => .pure ?_
      rw [hb] at hyx
      refine List.pairwise_cons.2
        ⟨List.forall_mem_cons.2 ⟨hyx, fun z hz => ?_⟩, hn⟩
      exact goes_on h hx hy (hrest z (List.mem_of_mem_take hz)) hyx
        (List.rel_of_pairwise_cons hn hz)
    · exact .pure (List.pairwise_singleton _ x)

/-- **The run at the front of a list**, which descends or does not. In one that
descends every element comes strictly before those in front of it, so no two of
them are tied and turning it around moves nothing past what it is tied with. -/
theorem endsIn_runLength (hxs : ∀ x ∈ xs, P x) :
    EndsIn (fun found => (xs.take found.1).Pairwise fun x y =>
      before y x = found.2) (runLength less xs) := by
  unfold runLength
  split
  · next x y ys =>
    simp only [List.forall_mem_cons] at hxs
    obtain ⟨hx, hy, hys⟩ := hxs
    refine (endsIn_isBefore h hy hx).bind fun b hb => ?_
    refine (endsIn_runBehind h b hy hys).bind fun n hn => .pure ?_
    refine List.pairwise_cons.2
      ⟨List.forall_mem_cons.2 ⟨hb.symm, fun z hz => ?_⟩, hn⟩
    exact goes_on h hx hy (hys z (List.mem_of_mem_take hz)) hb.symm
      (List.rel_of_pairwise_cons hn hz)
  · next hshort =>
    refine .pure ?_
    rcases xs with _ | ⟨x, _ | ⟨y, ys⟩⟩
    · exact .nil
    · exact List.pairwise_singleton _ x
    · exact absurd rfl (hshort x y ys)

/-- **Taking a run.** It takes at least one element, if there is one. The last
part is what the sort goes on by: where a run took nothing, the loop would end
too early. It needs `long` to be positive, since a stretch that is no run is
cut at that length. -/
theorem endsIn_takeRun (eager : Bool) (long : Nat) (hxs : ∀ x ∈ xs, P x) :
    EndsIn (fun taken => taken.1.Right P before eager ∧
        Shuffles P before xs (taken.1.items ++ taken.2) ∧
        (0 < long → xs ≠ [] → taken.2.length < xs.length))
      (takeRun less eager long xs) := by
  have hmemTake : ∀ n, ∀ x ∈ xs.take n, P x := fun n x hx =>
    hxs x (List.mem_of_mem_take hx)
  have hparts : ∀ n, Shuffles P before xs (xs.take n ++ xs.drop n) := by
    intro n
    rw [List.take_append_drop]
  have hshorter : ∀ n, 0 < n → xs ≠ [] → (xs.drop n).length < xs.length := by
    intro n hn hne
    rw [List.length_drop]
    exact Nat.sub_lt (List.length_pos_iff.2 hne) hn
  have hlength : ∀ {f : Nat × Bool → Sorting ε (Run α × List α)}
      {Q : Run α × List α → Prop},
      (∀ found : Nat × Bool,
        ((xs.take found.1).Pairwise fun x y => before y x = found.2) →
        EndsIn Q (f found)) →
      EndsIn Q (if long ≤ xs.length then runLength less xs >>= f
        else Pure.pure (0, false) >>= f) := by
    intro f Q hf
    split
    · exact (endsIn_runLength h hxs).bind hf
    · exact (EndsIn.pure (Q := fun found : Nat × Bool => (xs.take found.1).Pairwise
        fun x y => before y x = found.2) .nil).bind hf
  refine hlength fun (n, descending) hrun => ?_
  dsimp only at hrun ⊢
  split
  · next hle =>
    cases descending with
    | false =>
      exact .pure ⟨⟨hmemTake n, fun _ => hrun, fun _ => rfl⟩, hparts n,
        fun hlong => hshorter n (Nat.lt_of_lt_of_le hlong hle)⟩
    | true =>
      have hturned : Sorted before (xs.take n).reverse :=
        List.pairwise_reverse.2 <| hrun.imp_of_mem fun hx hy hyx =>
          h.asymm (hmemTake n _ hy) (hmemTake n _ hx) hyx
      exact .pure
        ⟨⟨forall_mem_reverse (hmemTake n), fun _ => hturned, fun _ => rfl⟩,
          (hparts n).trans ((Shuffles.reverse h (hmemTake n) hrun).append_right
            _), fun hlong => hshorter n (Nat.lt_of_lt_of_le hlong hle)⟩
  · split
    · next heager =>
      refine (endsIn_shortSort h (hmemTake shortLength)).bind fun zs hzs =>
        .pure ?_
      exact ⟨⟨hzs.shuffle.forall_mem (hmemTake _), fun _ => hzs.sorted,
          fun _ => rfl⟩,
        (hparts shortLength).trans (hzs.shuffle.append_right _),
        fun _ => hshorter shortLength (by decide)⟩
    · next heager =>
      exact .pure ⟨⟨hmemTake long, nofun, fun hyes => absurd hyes heager⟩,
        hparts long, hshorter long⟩

omit h in
/-- The length from which on a run stays as it is is never zero, so every run
takes something off the list. -/
theorem longEnough_pos {n : Nat} (hn : 0 < n) : 0 < longEnough n := by
  unfold longEnough
  split
  · omega
  · next hlong =>
    have hlog : 1 ≤ Nat.log2 n := (Nat.le_log2 (by omega)).2 (by omega)
    have hpow : 2 ^ 1 ≤ 2 ^ ((1 + Nat.log2 n) / 2) :=
      Nat.pow_le_pow_right (by decide) (by omega)
    exact Nat.div_pos (Nat.le_add_right_of_le hpow) (by decide)

omit h in
/-- The elements of runs that are held in reverse. -/
def itemsOf : List (Run α × Nat) → List α
  | [] => []
  | (run, _) :: before => itemsOf before ++ run.items

section Runs

variable {eager : Bool} {sort : List α → Sorting ε (List α)}
  (hsort : eager = false → ∀ xs, (∀ x ∈ xs, P x) → EndsIn (IsSortOf P before xs)
    (sort xs))
include hsort

/-- **Merging two runs.** Only runs that are yet to be sorted are handed to
`sort`. If neither is sorted they are only joined, and what is joined is left
unsorted as well. -/
theorem endsIn_mergeRuns {left right : Run α}
    (hleft : left.Right P before eager) (hright : right.Right P before eager) :
    EndsIn (fun run => run.Right P before eager ∧
        Shuffles P before (left.items ++ right.items) run.items)
      (mergeRuns less sort left right) := by
  have hrun :
      ∀ {f : List α → Sorting ε (Run α)} {Q : Run α → Prop} {run : Run α},
      run.Right P before eager →
      (∀ xs, IsSortOf P before run.items xs → EndsIn Q (f xs)) →
      EndsIn Q (if run.sorted then Pure.pure run.items >>= f
        else sort run.items >>= f) := by
    intro f Q run hrun hf
    split
    · next hmarked => exact hf run.items ⟨hrun.sorted hmarked, .refl _⟩
    · next hmarked =>
      have heager :=
        eq_false_of_ne_true fun heager => hmarked (hrun.marked heager)
      exact (hsort heager run.items hrun.mem).bind hf
  unfold mergeRuns
  split
  · refine hrun hleft fun xs hxs => hrun hright fun ys hys => ?_
    refine (endsIn_merge h (hxs.shuffle.forall_mem hleft.mem)
      (hys.shuffle.forall_mem hright.mem) hxs.sorted hys.sorted).bind
      fun zs hzs => .pure ?_
    have hshuffle := (hxs.shuffle.append hys.shuffle).trans hzs.shuffle
    have hmem :=
      hshuffle.forall_mem (List.forall_mem_append.2 ⟨hleft.mem, hright.mem⟩)
    exact ⟨⟨hmem, fun _ => hzs.sorted, fun _ => rfl⟩, hshuffle⟩
  · next hnone =>
    rw [Bool.or_eq_true, not_or] at hnone
    refine .pure ⟨⟨List.forall_mem_append.2 ⟨hleft.mem, hright.mem⟩, nofun, ?_⟩,
      .refl _⟩
    exact fun heager => absurd (hleft.marked heager) hnone.1

/-- **Merging a run with those before it.** At depth 0 it is merged with all of
them. The runs before it are held from the last to the first, which is why they
are turned around by `itemsOf`. At any depth all elements are still there, in a
stable order. -/
theorem endsIn_mergeBelow (depth : Nat) {before' : List (Run α × Nat)}
    {run : Run α} (hbefore : ∀ entry ∈ before', entry.1.Right P before eager)
    (hrun : run.Right P before eager) :
    EndsIn (fun merged => (∀ entry ∈ merged.1, entry.1.Right P before eager) ∧
        merged.2.Right P before eager ∧ (depth = 0 → merged.1 = []) ∧
        Shuffles P before (itemsOf before' ++ run.items)
          (itemsOf merged.1 ++ merged.2.items))
      (mergeBelow less sort depth before' run) := by
  induction before' generalizing run with
  | nil => exact .pure ⟨nofun, hrun, fun _ => rfl, .refl _⟩
  | cons entry before' ih =>
    obtain ⟨left, d⟩ := entry
    obtain ⟨hleft, hrest⟩ := List.forall_mem_cons.1 hbefore
    unfold mergeBelow
    split
    · refine (endsIn_mergeRuns h hsort hleft hrun).bind fun merged hmerged => ?_
      refine (ih hrest hmerged.1).mono fun all hall =>
        ⟨hall.1, hall.2.1, hall.2.2.1, ?_⟩
      rw [itemsOf, List.append_assoc]
      exact (hmerged.2.append_left _).trans hall.2.2.2
    · next hdeep =>
      exact .pure
        ⟨hbefore, hrun, fun hzero => absurd (hzero ▸ Nat.zero_le d) hdeep,
          .refl _⟩

/-- **Taking runs to the end of the list** and merging them. The induction is
on the length of what is left of the list, and what the runs on the stack hold
stands in front of it. -/
theorem endsIn_mergeOn {n : Nat} (hn : xs ≠ [] → 0 < n)
    {before' : List (Run α × Nat)} {last : Run α} (stop : Nat)
    (hbefore : ∀ entry ∈ before', entry.1.Right P before eager)
    (hlast : last.Right P before eager) (hxs : ∀ x ∈ xs, P x) :
    EndsIn (fun run => run.Right P before eager ∧
        Shuffles P before (itemsOf before' ++ last.items ++ xs) run.items)
      (mergeOn less eager sort n before' last stop xs) := by
  induction hk : xs.length
    using Nat.strongRecOn generalizing before' last stop xs with
  | _ k ih =>
    unfold mergeOn
    split
    · next hempty =>
      rw [List.isEmpty_iff.1 hempty, List.append_nil]
      refine (endsIn_mergeBelow h hsort 0 hbefore hlast).bind
        fun merged hmerged =>
        .pure ⟨hmerged.2.1, ?_⟩
      have hall := hmerged.2.2.2
      rwa [hmerged.2.2.1 rfl, itemsOf, List.nil_append] at hall
    · next hmore =>
      have hne : xs ≠ [] := fun hnil => hmore (hnil ▸ rfl)
      refine (endsIn_takeRun h eager (longEnough n) hxs).bind
        fun taken htaken => ?_
      obtain ⟨run, rest⟩ := taken
      obtain ⟨hrun, hshuffle, hshorter⟩ := htaken
      dsimp only at hrun hshuffle hshorter ⊢
      refine (endsIn_mergeBelow h hsort _ hbefore hlast).bind
        fun merged hmerged => ?_
      obtain ⟨hbefore', hmerged, -, hshuffle'⟩ := hmerged
      have hlt := hshorter (longEnough_pos (hn hne)) hne
      rw [if_pos hlt]
      have hrest := (List.forall_mem_append.1 (hshuffle.forall_mem hxs)).2
      refine (ih _ (hk ▸ hlt) (fun _ => hn hne) _
        (List.forall_mem_cons.2 ⟨hmerged, hbefore'⟩) hrun hrest rfl).mono
        fun whole hwhole => ⟨hwhole.1, ?_⟩
      rw [itemsOf] at hwhole
      refine Shuffles.trans ?_ hwhole.2
      have hboth := hshuffle'.append hshuffle
      rwa [← List.append_assoc _ run.items] at hboth

/-- **Sorting by runs sorts**, if what it hands on is sorted. A sort by runs
that is not eager hands unsorted stretches to another sort, and this in turn
may fall back on an eager sort by runs. So the theorem is about any `sort`, and
is used twice. -/
theorem endsIn_runSort (hxs : ∀ x ∈ xs, P x) :
    EndsIn (IsSortOf P before xs) (runSort less eager sort xs) := by
  unfold runSort
  refine (endsIn_takeRun h eager _ hxs).bind fun taken htaken => ?_
  obtain ⟨run, rest⟩ := taken
  obtain ⟨hrun, hshuffle, hshorter⟩ := htaken
  dsimp only at hrun hshuffle hshorter ⊢
  have hrest := (List.forall_mem_append.1 (hshuffle.forall_mem hxs)).2
  have hn : rest ≠ [] → 0 < xs.length := by
    intro hne
    have hle := hshuffle.perm.length_eq
    have hpos := List.length_pos_iff.2 hne
    rw [List.length_append] at hle
    omega
  refine (endsIn_mergeOn h hsort hn _ (List.forall_mem_nil _) hrun hrest).bind
    fun whole hwhole => ?_
  have hshuffle' := hshuffle.trans hwhole.2
  split
  · next hmarked => exact .pure ⟨hwhole.1.sorted hmarked, hshuffle'⟩
  · next hmarked =>
    have heager :=
      eq_false_of_ne_true fun heager => hmarked (hwhole.1.marked heager)
    exact (hsort heager whole.items hwhole.1.mem).mono fun zs hzs =>
      ⟨hzs.sorted, hshuffle'.trans hzs.shuffle⟩

end Runs

/-! ## Partition

The elements are split around one of them, and either side is sorted. Elements
tied with the pivot have to go to one side, or the sort would never end on equal
elements; they are set apart where no element comes before the pivot, which also
shows when an earlier pivot, behind which all of them come, is tied with it. -/

/-- To compare at two places asks for elements that are there. -/
theorem endsIn_isBeforeAt {items : Array α} (hitems : ∀ x ∈ items, P x)
    (i j : Nat) :
    EndsIn (fun _ => True) (isBeforeAt less items i j) := by
  unfold isBeforeAt
  split
  · next x y hx hy =>
    exact (endsIn_isBefore h (hitems x (Array.mem_of_getElem? hx))
      (hitems y (Array.mem_of_getElem? hy))).mono fun _ _ => trivial
  · exact .pure trivial

/-- The median is one of the three places. Which of them is of no matter. -/
theorem endsIn_medianAt {items : Array α} (hitems : ∀ x ∈ items, P x)
    (i j k : Nat) :
    EndsIn (fun p => p = i ∨ p = j ∨ p = k) (medianAt less items i j k) := by
  refine (endsIn_isBeforeAt h hitems i j).bind fun second _ => ?_
  refine (endsIn_isBeforeAt h hitems i k).bind fun third _ => ?_
  split
  · refine (endsIn_isBeforeAt h hitems j k).bind fun ordered _ => .pure ?_
    split
    · exact .inr (.inl rfl)
    · exact .inr (.inr rfl)
  · exact .pure (.inl rfl)

/-- The place of the pivot is a place of the list: each of the three places has
as many elements behind it as are looked at. -/
theorem endsIn_middleOf {items : Array α} (hitems : ∀ x ∈ items, P x)
    {i j k n m : Nat} (hn : 0 < n) (hi : i + n ≤ m) (hj : j + n ≤ m)
    (hk : k + n ≤ m) :
    EndsIn (· < m) (middleOf less items i j k n) := by
  have hmedian : ∀ {i j k : Nat}, i < m → j < m → k < m →
      EndsIn (· < m) (medianAt less items i j k) := fun hi hj hk =>
    (endsIn_medianAt h hitems _ _ _).mono fun p hp => by
      rcases hp with rfl | rfl | rfl <;> assumption
  induction n using Nat.strongRecOn generalizing i j k with
  | _ n ih =>
    unfold middleOf
    split
    · next hmany =>
      have hlt : n / 8 < n := Nat.div_lt_self hn (by decide)
      have hpos : 0 < n / 8 := Nat.div_pos hmany (by decide)
      refine (ih _ hlt hpos ?_ ?_ ?_).bind fun i hi =>
        (ih _ hlt hpos ?_ ?_ ?_).bind fun j hj =>
          (ih _ hlt hpos ?_ ?_ ?_).bind fun k hk => hmedian hi hj hk
      all_goals omega
    · exact hmedian (by omega) (by omega) (by omega)

/-- A pivot is one of the elements. It is looked for only among eight or more,
so the places that are compared are there. -/
theorem endsIn_pivotAt (hxs : ∀ x ∈ xs, P x) (hmany : 8 ≤ xs.length) :
    EndsIn (· < xs.length) (pivotAt less xs) := by
  have hitems : ∀ x ∈ xs.toArray, P x :=
    fun x hx => hxs x (List.mem_toArray.1 hx)
  unfold pivotAt
  refine endsIn_middleOf h hitems ?_ ?_ ?_ ?_ <;> omega

section Split

variable {test : α → Sorting ε Bool} {goesLeft : α → Bool}
  (htest : ∀ x, P x → EndsIn (· = goesLeft x) (test x))
include htest

omit h in
/-- Splitting by a test keeps the order on either side. -/
theorem endsIn_splitBy (hxs : ∀ x ∈ xs, P x) :
    EndsIn (· = (xs.filter goesLeft, xs.filter fun x => !goesLeft x))
      (splitBy test xs) := by
  induction xs with
  | nil => exact .pure rfl
  | cons x xs ih =>
    obtain ⟨hx, hrest⟩ := List.forall_mem_cons.1 hxs
    refine (htest x hx).bind fun b hb => (ih hrest).bind fun parts hparts =>
      .pure ?_
    subst hb hparts
    cases hleft : goesLeft x <;> simp [hleft]

omit h in
/-- A list split around its pivot is split as a whole, if the pivot goes where
the test says. -/
theorem endsIn_splitAround {front after : List α} {pivot : α}
    (hxs : ∀ x ∈ front ++ pivot :: after, P x) :
    EndsIn (· = ((front ++ pivot :: after).filter goesLeft,
        (front ++ pivot :: after).filter fun x => !goesLeft x))
      (splitAround test (goesLeft pivot) front pivot after) := by
  obtain ⟨hfront, hrest⟩ := List.forall_mem_append.1 hxs
  obtain ⟨-, hafter⟩ := List.forall_mem_cons.1 hrest
  refine (endsIn_splitBy htest hfront).bind fun parts hparts =>
    (endsIn_splitBy htest hafter).bind fun parts' hparts' => .pure ?_
  subst hparts hparts'
  cases hleft : goesLeft pivot <;> simp [hleft]

end Split

/-- **Splitting moves nothing past what it is tied with**, if what goes to the
left comes before what goes to the right. An element that goes to the right is
moved behind later ones that go to the left, and since those come strictly
before it they are not tied with it. -/
theorem Shuffles.split {goesLeft : α → Bool} (hxs : ∀ x ∈ xs, P x)
    (hlt : ∀ x ∈ xs, ∀ y ∈ xs, goesLeft x = true → goesLeft y = false →
      before x y = true) :
    Shuffles P before xs
    (xs.filter goesLeft ++ xs.filter fun x => !goesLeft x) := by
  induction xs with
  | nil => exact .refl []
  | cons x xs ih =>
    obtain ⟨hx, hrest⟩ := List.forall_mem_cons.1 hxs
    have ih := ih hrest fun y hy z hz =>
      hlt y (List.mem_cons_of_mem x hy) z (List.mem_cons_of_mem x hz)
    cases hleft : goesLeft x with
    | true => simpa [hleft] using ih.cons x
    | false =>
      have hmem : ∀ y ∈ xs.filter goesLeft, P y := fun y hy =>
        hrest y (List.mem_filter.1 hy).1
      have hmove : Shuffles P before ([x] ++ xs.filter goesLeft)
          (xs.filter goesLeft ++ [x]) :=
        .swap h (List.forall_mem_singleton.2 hx) hmem fun x' hx' y hy => by
          obtain rfl := List.mem_singleton.1 hx'
          obtain ⟨hy, hyleft⟩ := List.mem_filter.1 hy
          exact hlt y (List.mem_cons_of_mem x' hy) x' List.mem_cons_self
            hyleft hleft
      have hmoved := (ih.cons x).trans (hmove.append_right _)
      simpa [hleft] using hmoved

/-- The part that goes left, sorted, and the other part sorted behind it. -/
theorem IsSortOf.split {goesLeft : α → Bool} {left right : List α}
    (hxs : ∀ x ∈ xs, P x)
    (hlt : ∀ x ∈ xs, ∀ y ∈ xs, goesLeft x = true → goesLeft y = false →
      before x y = true)
    (hleft : IsSortOf P before (xs.filter goesLeft) left)
    (hright : IsSortOf P before (xs.filter fun x => !goesLeft x) right) :
    IsSortOf P before xs (left ++ right) := by
  refine ⟨hleft.sorted.append hright.sorted ?_,
    (Shuffles.split h hxs hlt).trans (hleft.shuffle.append hright.shuffle)⟩
  refine hleft.shuffle.forall_mem fun x hx =>
    hright.shuffle.forall_mem fun y hy => ?_
  obtain ⟨hx, hxleft⟩ := List.mem_filter.1 hx
  obtain ⟨hy, hyright⟩ := List.mem_filter.1 hy
  rw [Bool.not_eq_true'] at hyright
  exact h.asymm (hxs x hx) (hxs y hy) (hlt x hx y hy hxleft hyright)

omit h in
/-- **The parts on either side of a pivot**: those that a split yields, or all
elements behind it if none comes before it. In the second case nothing has been
split, and the caller finds that out by the left part being empty, which a
split around a least pivot gives as well. -/
def IsParts (before : α → α → Bool) (xs : List α) (pivot : α)
    (parts : List α × List α) : Prop :=
  parts = (xs.filter (before · pivot), xs.filter fun x => !before x pivot) ∨
    parts.1 = [] ∧ ∀ x ∈ xs, before x pivot = false

section Parts

variable {front after : List α} {pivot : α}

/-- The parts of the elements around a pivot, which need not be split if the
ancestor has shown already that none comes before it. -/
theorem endsIn_parts (hxs : ∀ x ∈ xs, P x)
    (hwhole : front ++ pivot :: after = xs) {least : Bool}
    (hleast : least = false → ∀ x ∈ xs, before x pivot = false)
    {f : List α × List α → Sorting ε (List α)} {Q : List α → Prop}
    (hf : ∀ parts, IsParts before xs pivot parts → EndsIn Q (f parts)) :
    EndsIn Q (if least = true then
      splitAround (isBefore less · pivot) false front pivot after >>= f
      else pure ([], xs) >>= f) := by
  have hpivot : P pivot := hxs pivot (hwhole ▸ List.mem_append_cons_self)
  split
  · have htest : ∀ x, P x →
        EndsIn (· = before x pivot) (isBefore less x pivot) :=
      fun x hx => endsIn_isBefore h hx hpivot
    have hparts := endsIn_splitAround htest (hwhole.symm ▸ hxs)
    rw [h.irrefl hpivot, hwhole] at hparts
    exact hparts.bind fun parts hparts => hf parts (.inl hparts)
  · next hno => exact hf ([], xs) (.inr ⟨rfl, hleast (eq_false_of_ne_true hno)⟩)

/-- **Elements tied with the pivot are set apart** if none comes before it;
what is left comes behind it. The pivot then is a least element, and those not
greater than it are all tied with it and with each other: they are sorted as
they stand. -/
theorem endsIn_setApart (hxs : ∀ x ∈ xs, P x)
    (hwhole : front ++ pivot :: after = xs)
    (hnone : ∀ x ∈ xs, before x pivot = false)
    {sort : List α → Sorting ε (List α)} (hsort : ∀ ys, (∀ y ∈ ys, P y) →
      EndsIn (IsSortOf P before ys) (sort ys)) :
    EndsIn (IsSortOf P before xs) (do
      let halves ← splitAround (fun x => do
        let behind ← isBefore less pivot x
        return !behind) true front pivot after
      let right ← sort halves.2
      return halves.1 ++ right) := by
  have hpivot : P pivot := hxs pivot (hwhole ▸ List.mem_append_cons_self)
  have htest : ∀ x, P x → EndsIn (· = !before pivot x) (do
      let behind ← isBefore less pivot x
      return !behind) := fun x hx =>
    (endsIn_isBefore h hpivot hx).bind fun b hb => .pure (congrArg (!·) hb)
  have hsplit := endsIn_splitAround htest (hwhole.symm ▸ hxs)
  rw [h.irrefl hpivot, hwhole] at hsplit
  refine hsplit.bind fun halves hhalves => ?_
  subst hhalves
  refine (hsort _ fun x hx => hxs x (List.mem_filter.1 hx).1).bind
    fun right hright => .pure ?_
  refine .split h hxs (fun x hx y hy hxleft hyright => ?_) ⟨?_, .refl _⟩ hright
  · simp only [Bool.not_eq_true', Bool.not_eq_false'] at hxleft hyright
    exact h.before_of_lt (hxs x hx) hpivot (hxs y hy) hxleft hyright
  · -- the pivot comes before none of them, and none before the pivot
    refine List.pairwise_of_forall_mem_list fun x hx y hy => ?_
    obtain ⟨hx, hxleft⟩ := List.mem_filter.1 hx
    obtain ⟨hy, -⟩ := List.mem_filter.1 hy
    rw [Bool.not_eq_true'] at hxleft
    exact h.le_trans (hxs x hx) hpivot (hxs y hy) hxleft (hnone y hy)

/-- **The two sides of a pivot**, each sorted, one behind the other. The pivot
is on the right side. The right side is sorted before the left one, which only
the order of the comparisons could tell. -/
theorem endsIn_sides (hxs : ∀ x ∈ xs, P x) (hpivot : P pivot)
    {sortLeft sortRight : Sorting ε (List α)}
    (hleft : EndsIn (IsSortOf P before (xs.filter (before · pivot))) sortLeft)
    (hright : EndsIn (IsSortOf P before (xs.filter fun x => !before x pivot))
      sortRight) :
    EndsIn (IsSortOf P before xs) (do
      let right ← sortRight
      let left ← sortLeft
      return left ++ right) := by
  refine hright.bind fun right hright => hleft.bind fun left hleft => .pure ?_
  refine .split h hxs (fun x hx y hy hxleft hyright => ?_) hleft hright
  exact h.before_of_le (hxs x hx) hpivot (hxs y hy) hxleft hyright

end Parts

/-- **Sorting by partition sorts**, if no element comes before `ancestor`. The
induction is on how many partitions are left. The left part keeps the ancestor,
and for the right part the pivot is the ancestor, since none of its elements
comes before that. If the left part is empty, the elements tied with the pivot
are set apart, and only those behind them are left to be sorted. -/
theorem endsIn_partitionSort (limit : Nat) {ancestor : Option α}
    (hancestor : ∀ a, ancestor = some a → P a ∧ ∀ x ∈ xs, before x a = false)
    (hxs : ∀ x ∈ xs, P x) :
    EndsIn (IsSortOf P before xs) (partitionSort less limit ancestor xs) := by
  induction limit generalizing ancestor xs with
  | zero =>
    unfold partitionSort
    split
    · exact endsIn_shortSort h hxs
    · exact endsIn_runSort h
        (fun heager => absurd heager.symm Bool.false_ne_true) hxs
  | succ limit ih =>
    unfold partitionSort
    split
    · exact endsIn_shortSort h hxs
    · next hlong =>
      rw [shortLength] at hlong
      refine (endsIn_pivotAt h hxs (by omega)).bind fun p hp => ?_
      split
      · next hnil =>
          exact absurd (List.drop_eq_nil_iff.1 hnil) (Nat.not_le_of_lt hp)
      · next pivot after hdrop =>
        have hwhole : xs.take p ++ pivot :: after = xs := by
          rw [← hdrop, List.take_append_drop]
        have hpivot : P pivot := hxs pivot (hwhole ▸ List.mem_append_cons_self)
        have hends : ∀ parts, IsParts before xs pivot parts →
            EndsIn (IsSortOf P before xs) (if parts.1.isEmpty then do
              let halves ← splitAround (fun x => do
                let behind ← isBefore less pivot x
                return !behind) true (xs.take p) pivot after
              let right ← partitionSort less limit none halves.2
              return halves.1 ++ right
            else do
              let right ← partitionSort less limit (some pivot) parts.2
              let left ← partitionSort less limit ancestor parts.1
              return left ++ right) := by
          intro parts hparts
          split
          · next hempty =>
            refine endsIn_setApart h hxs hwhole ?_ fun ys hys => ih nofun hys
            rcases hparts with rfl | ⟨-, hnone⟩
            · rw [List.isEmpty_iff] at hempty
              exact fun x hx =>
                eq_false_of_ne_true (List.filter_eq_nil_iff.1 hempty x hx)
            · exact hnone
          · next hsome =>
            obtain rfl := hparts.resolve_right fun hno => hsome (hno.1 ▸ rfl)
            have hmem : ∀ {q : α → Bool}, ∀ x ∈ xs.filter q, P x := fun x hx =>
              hxs x (List.mem_filter.1 hx).1
            have hright : ∀ a, some pivot = some a →
                P a ∧ ∀ x ∈ xs.filter (fun x => !before x pivot),
                before x a = false := by
              rintro a ⟨⟩
              refine ⟨hpivot, fun x hx => ?_⟩
              simpa only [Bool.not_eq_true'] using (List.mem_filter.1 hx).2
            refine endsIn_sides h hxs hpivot (ih (fun a ha => ?_) hmem)
              (ih hright hmem)
            exact ⟨(hancestor a ha).1, fun x hx =>
              (hancestor a ha).2 x (List.mem_filter.1 hx).1⟩
        split
        · next a =>
          obtain ⟨ha, hbehind⟩ := hancestor a rfl
          refine (endsIn_isBefore h ha hpivot).bind fun least hleast => ?_
          refine endsIn_parts h hxs hwhole (fun hno x hx => ?_) hends
          exact h.le_trans hpivot ha (hxs x hx) (hleast ▸ hno) (hbehind x hx)
        · have hyes : EndsIn (· = true) (pure true : Sorting ε Bool) :=
            .pure rfl
          refine hyes.bind fun least hleast => ?_
          exact endsIn_parts h hxs hwhole
            (fun hno => absurd (hno.symm.trans hleast) Bool.false_ne_true) hends

/-- **Sorting a list by its runs sorts it.** Stretches that are no runs are
sorted by partition, with no ancestor at first. -/
theorem endsIn_sort (hxs : ∀ x ∈ xs, P x) :
    EndsIn (IsSortOf P before xs) (Sort.sort less xs) :=
  endsIn_runSort h (fun _ _ hys => endsIn_partitionSort h _ nofun hys) hxs

/-- A sort that sorts leaves what the merge sort of the library leaves. -/
theorem EndsIn.run_eq_mergeSort {sorting : Sorting ε (List α)}
    (hxs : ∀ x ∈ xs, P x) (hsorting : EndsIn (IsSortOf P before xs) sorting) :
    sorting.run none = (xs.mergeSort fun x y => !before y x, none) := by
  obtain ⟨ys, hrun, hys⟩ := hsorting
  have hmerge := isSortOf_mergeSort h hxs
  have heq := Shuffles.eq_of_sorted h (hys.shuffle.forall_mem hxs) hys.sorted
    hmerge.sorted (hys.shuffle.symm.trans hmerge.shuffle)
  exact hrun.trans (congrArg (·, none) heq)

/-- **Sorting by runs and the merge sort** of the library leave the same. There
is one sorted arrangement that keeps tied elements in their places
(`Shuffles.eq_of_sorted`), and both have it. No step of the one is compared
with a step of the other. -/
theorem sort_eq_mergeSort (hxs : ∀ x ∈ xs, P x) :
    (Sort.sort less xs).run none
      = (xs.mergeSort fun x y => !before y x, none) :=
  (endsIn_sort h hxs).run_eq_mergeSort h hxs

/-- **Insertion and the merge sort** of the library leave the same. Short lists
are sorted by insertion. -/
theorem insertionSort_eq_mergeSort (hxs : ∀ x ∈ xs, P x) :
    (insertionSort less xs).run none
      = (xs.mergeSort fun x y => !before y x, none) :=
  (endsIn_insertionSort h hxs).run_eq_mergeSort h hxs

end Ways

end StreamScript.Sort

namespace StreamScript

/-! ## The results of a block

Results that hold no map, and no number that is none, are in order. So the test
for them is a shortcut: sorting them by one comparison after the other cannot
fail, and leaves the same. -/

namespace Value

mutual

/-- What the order covers is over the numbers that are ones. -/
theorem over_of_isOrderly : ∀ a : Value, a.isOrderly = true →
    a.Over (·.isNaN = false)
  | .text s, _ => .text s
  | .number _, h => .number (by simpa [isOrderly] using h)
  | .truth b, _ => .truth b
  | .array items, h => .array (over_of_areOrderly items h)

/-- Values that are orderly hold only numbers that are ones. -/
theorem over_of_areOrderly : ∀ items : List Value, areOrderly items = true →
    ∀ v ∈ items, v.Over (·.isNaN = false)
  | [], _ => nofun
  | a :: items, h => by
    rw [areOrderly, Bool.and_eq_true] at h
    exact List.forall_mem_cons.2 ⟨over_of_isOrderly a h.1,
      over_of_areOrderly items h.2⟩

end

end Value

namespace Yield

/-- Whether the result of the first element is smaller. -/
def precedes (x y : Yield) : Bool :=
  !y.staysBefore x

/-- **Results with an order are ordered by comparing them.** The comparison is
`Value.compare`, and by `Ordered` neither a map nor what is no number stands in
a result, which are the cases where it fails or contradicts itself. -/
theorem isOrder : Sort.IsOrder Ordered isBefore precedes where
  compared {x y} hx hy := by
    obtain ⟨o, ho, -⟩ := hx.exists_compare hy
    have hbefore : x.isBefore y = .ok (o == .lt) := by
      rw [isBefore, ho]
      rfl
    rw [precedes, staysBefore, hbefore, Bool.not_not]
  asymm {x y} hx hy hxy := by
    have htotal := hx.staysBefore_total hy
    simp only [precedes, Bool.not_eq_true', Bool.not_eq_false'] at hxy ⊢
    rwa [hxy, Bool.or_false] at htotal
  through {x y z} hx hy hz hxz := by
    simp only [precedes, Bool.not_eq_true'] at hxz ⊢
    cases hyx : y.staysBefore x with
    | false => exact .inl rfl
    | true =>
      refine .inr (eq_false_of_ne_true fun hzy => ?_)
      exact Bool.false_ne_true
        (hxz.symm.trans (hz.staysBefore_trans hy hx hzy hyx))

/-- **The test for an order is a shortcut**: sorting by one comparison after
the other comes to the same. Where all results have an order no comparison
fails, so there is no error to be remembered, and both sorts leave the elements
as the merge sort of the library does; everywhere else the two are the same by
definition. -/
theorem sort_eq_sortBySteps (yields : List Yield) :
    Yield.sort yields = Yield.sortBySteps yields := by
  unfold Yield.sort
  split
  · next hall =>
    have hordered : ∀ y ∈ yields, y.Ordered := fun y hy =>
      Value.over_of_isOrderly y.result (List.all_eq_true.1 hall y hy)
    have hle : (fun x y : Yield => !precedes y x) = staysBefore := by
      funext x y
      exact Bool.not_not _
    have hrun : (if yields.length ≤ few then Sort.insertionSort isBefore yields
        else Sort.sort isBefore yields).run none
        = (yields.mergeSort staysBefore, none) := by
      rw [← hle]
      split
      · exact Sort.insertionSort_eq_mergeSort isOrder hordered
      · exact Sort.sort_eq_mergeSort isOrder hordered
    rw [sortBySteps, hrun]
  · rfl

end Yield

end StreamScript
