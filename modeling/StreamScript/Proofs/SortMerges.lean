import StreamScript.Proofs.Shuffles
import StreamScript.Proofs.SortMembers

/-!
# Insertion and merges sort

The pieces that a long sort is made of, for comparisons that are an order and do
not fail: insertion, the merge of two sorted lists from the front and from the
back, the merge of two halves from both ends at once, and the sorting of a short
list, which is put together from these.

The merge from both ends is the one that needs an argument. It takes as many
elements from the front as from the back, never compares the two sides, and puts
the one element that may be left over between them. That the two sides meet, and
that the element left over is where the lengths say it is, follows from the
places at which a merge cuts its lists (`Cut`).
-/

namespace StreamScript.Sort

variable {ε α β γ : Type}

/-! ## Sorting without a failure

A step of sorting begins with the first failure so far. Begun with none, a step
whose comparisons do not fail ends with none, and what it leaves can be said of
one value. The steps of the sort are followed with `EndsIn.bind`, one comparison
at a time. -/

/-- **Sorting that does not fail**, and leaves something with a property. A
sort remembers the first comparison that fails and goes on as if there were a
tie, so "does not fail" is a statement about the state it ends with. -/
def EndsIn (Q : β → Prop) (x : Sorting ε β) : Prop :=
  ∃ b, x.run none = (b, none) ∧ Q b

namespace EndsIn

variable {Q R : β → Prop} {S : γ → Prop}

/-- A step without a comparison ends in what it leaves. -/
theorem pure {b : β} (h : Q b) : EndsIn Q (Pure.pure b : Sorting ε β) :=
  ⟨b, rfl, h⟩

/-- **What a step ends in is at hand in the next one.** Every proof about a
sort below goes along its definition, one comparison or one call after the
other, with this lemma. -/
theorem bind {x : Sorting ε β} {f : β → Sorting ε γ} (hx : EndsIn Q x)
    (hf : ∀ b, Q b → EndsIn S (f b)) : EndsIn S (x >>= f) := by
  obtain ⟨b, hrun, hb⟩ := hx
  obtain ⟨c, hrun', hc⟩ := hf b hb
  refine ⟨c, ?_, hc⟩
  rw [StateT.run_bind, hrun]
  exact hrun'

/-- Less may be asked of the end. -/
theorem mono {x : Sorting ε β} (hx : EndsIn Q x) (h : ∀ b, Q b → R b) :
    EndsIn R x :=
  hx.imp fun b hb => ⟨hb.1, h b hb.2⟩

end EndsIn

/-- A comparison ends in the answer that the order gives. -/
theorem endsIn_isBefore {P : α → Prop} {less : α → α → Except ε Bool}
    {before : α → α → Bool} (h : IsOrder P less before) {x y : α} (hx : P x)
    (hy : P y) : EndsIn (· = before x y) (isBefore less x y) := by
  refine ⟨before x y, ?_, rfl⟩
  simp only [isBefore, StateT.run, h.compared hx hy]

section Ways

variable {P : α → Prop} {less : α → α → Except ε Bool} {before : α → α → Bool}
  (h : IsOrder P less before) {xs ys zs : List α}
include h

/-! ## Insertion

The sorted elements are held in reverse, so that the new one is compared with
the last of them first. What is said is about the lists turned around. -/

/-- Putting one element in its place. It is moved in front of those that it
comes before, and all others may stay in front of it. -/
theorem endsIn_place {x : α} (hx : P x) (hys : ∀ y ∈ ys, P y)
    (hsorted : Sorted before ys.reverse) :
    EndsIn (fun zs => IsSortOf P before (ys.reverse ++ [x]) zs.reverse)
      (place less x ys) := by
  induction ys with
  | nil => exact .pure ⟨List.pairwise_singleton _ x, .refl [x]⟩
  | cons y ys ih =>
    obtain ⟨hy, hrest⟩ := List.forall_mem_cons.1 hys
    rw [List.reverse_cons] at hsorted
    obtain ⟨hsortedRest, -, hle⟩ := List.pairwise_append.1 hsorted
    refine (endsIn_isBefore h hx hy).bind fun b hb => ?_
    subst hb
    split
    · next hxy =>
      -- the new element goes behind `y`, among those in front of it
      refine (ih hrest hsortedRest).bind fun zs hzs => .pure ?_
      have hlast : ∀ z ∈ zs.reverse, before y z = false := by
        refine hzs.shuffle.forall_mem (List.forall_mem_append.2 ⟨?_, ?_⟩)
        · exact fun z hz => hle z hz y (List.mem_singleton.2 rfl)
        · exact List.forall_mem_singleton.2 (h.asymm hx hy hxy)
      rw [List.reverse_cons, List.reverse_cons, List.append_assoc]
      constructor
      · exact hzs.sorted.append (List.pairwise_singleton _ y) fun z hz y' hy' =>
          List.mem_singleton.1 hy' ▸ hlast z hz
      · have hmove : Shuffles P before ([y] ++ [x]) ([x] ++ [y]) :=
          .ahead h (List.forall_mem_singleton.2 hy) hx
            (List.forall_mem_singleton.2 hxy)
        exact (hmove.append_left ys.reverse).trans
          (List.append_assoc .. ▸ hzs.shuffle.append_right [y])
    · next hxy =>
      rw [Bool.not_eq_true] at hxy
      refine .pure ⟨?_, ?_⟩
      · rw [List.reverse_cons, List.reverse_cons]
        refine hsorted.append (List.pairwise_singleton _ x) fun z hz x' hx' =>
          ?_
        obtain rfl := List.mem_singleton.1 hx'
        rcases List.mem_append.1 hz with hz | hz
        · exact h.le_trans (hrest z (List.mem_reverse.1 hz)) hy hx
            (hle z hz y (List.mem_singleton.2 rfl)) hxy
        · rwa [List.mem_singleton.1 hz]
      · rw [List.reverse_cons (a := x)]

/-- Elements put in their places one by one, behind those that are tied with
them. -/
theorem endsIn_placeAll (hxs : ∀ x ∈ xs, P x) (hys : ∀ y ∈ ys, P y)
    (hsorted : Sorted before ys.reverse) :
    EndsIn (fun zs => IsSortOf P before (ys.reverse ++ xs) zs.reverse)
      (placeAll less ys xs) := by
  induction xs generalizing ys with
  | nil => exact .pure ⟨hsorted, by rw [List.append_nil]⟩
  | cons x xs ih =>
    obtain ⟨hx, hrest⟩ := List.forall_mem_cons.1 hxs
    refine (endsIn_place h hx hys hsorted).bind fun zs hzs => ?_
    have hmem : ∀ z ∈ zs, P z := fun z hz =>
      hzs.shuffle.forall_mem (List.forall_mem_append.2
        ⟨forall_mem_reverse hys, List.forall_mem_singleton.2 hx⟩) z
          (List.mem_reverse.2 hz)
    refine (ih hrest hmem hzs.sorted).mono fun all hall => ⟨hall.sorted, ?_⟩
    rw [List.append_cons]
    exact (hzs.shuffle.append_right xs).trans hall.shuffle

/-- **Insertion sorts.** It begins with no element in place. -/
theorem endsIn_insertionSort (hxs : ∀ x ∈ xs, P x) :
    EndsIn (IsSortOf P before xs) (insertionSort less xs) :=
  (endsIn_placeAll h hxs (List.forall_mem_nil P) List.Pairwise.nil).bind
    fun _ hzs => .pure hzs

/-! ## Merging

A merge of two sorted lists is known by where it cuts them. What it has taken so
far is a front part of each (`Cut`): the elements taken from the first list may
stay in front of what is left of the second, and those taken from the second
come before what is left of the first. So the two front parts sorted, followed
by the two rests sorted, are both lists sorted (`Cut.append`), and a merge that
works from both ends meets in the middle because there is one cut of each size
only (`Cut.lengths_le`). -/

omit h in
/-- **Two sorted lists cut as by a merge**, into what comes first of either and
what is left. What has been taken of the second list comes strictly before all
that is left of the first, so that ties go to the first; and nothing that is
left of the second comes before what has been taken of the first. -/
structure Cut (P : α → Prop) (before : α → α → Bool) (xs ys xs' ys' : List α) :
    Prop where
  memLeft : ∀ x ∈ xs ++ xs', P x
  memRight : ∀ y ∈ ys ++ ys', P y
  sortedLeft : Sorted before (xs ++ xs')
  sortedRight : Sorted before (ys ++ ys')
  stays : ∀ x ∈ xs, ∀ y ∈ ys', before y x = false
  moves : ∀ y ∈ ys, ∀ x ∈ xs', before y x = true

namespace Cut

variable {x y : α} {xs' ys' front back : List α}

/-- **What a merge takes first, followed by the rest.** No element of the back
comes before one of the front: within a list because it is sorted, and across
the two by the cut. -/
theorem append (hcut : Cut P before xs ys xs' ys')
    (hfront : IsSortOf P before (xs ++ ys) front)
    (hback : IsSortOf P before (xs' ++ ys') back) :
    IsSortOf P before ((xs ++ xs') ++ (ys ++ ys')) (front ++ back) := by
  obtain ⟨hxs, hxs'⟩ := List.forall_mem_append.1 hcut.memLeft
  obtain ⟨hys, hys'⟩ := List.forall_mem_append.1 hcut.memRight
  constructor
  · refine hfront.sorted.append hback.sorted ?_
    refine hfront.shuffle.forall_mem (List.forall_mem_append.2 ⟨?_, ?_⟩)
    · refine fun x hx =>
        hback.shuffle.forall_mem (List.forall_mem_append.2 ⟨?_, ?_⟩)
      · exact fun x' hx' => (List.pairwise_append.1 hcut.sortedLeft).2.2 x
          hx x' hx'
      · exact fun y' hy' => hcut.stays x hx y' hy'
    · refine fun y hy =>
        hback.shuffle.forall_mem (List.forall_mem_append.2 ⟨?_, ?_⟩)
      · exact fun x' hx' => h.asymm (hys y hy) (hxs' x' hx')
          (hcut.moves y hy x' hx')
      · exact fun y' hy' => (List.pairwise_append.1 hcut.sortedRight).2.2 y
          hy y' hy'
  · have hmove : Shuffles P before (xs' ++ ys) (ys ++ xs') :=
      .swap h hxs' hys fun x hx y hy => hcut.moves y hy x hx
    have hinner := (hmove.append_right ys').append_left xs
    simp only [List.append_assoc] at hinner
    have hends := hfront.shuffle.append hback.shuffle
    simp only [List.append_assoc] at hends ⊢
    exact hinner.trans hends

omit h in
/-- Parts of the lists are cut alike. -/
theorem sublist (hcut : Cut P before xs ys xs' ys') {as bs as' bs' : List α}
    (has : as.Sublist xs) (hbs : bs.Sublist ys) (has' : as'.Sublist xs')
    (hbs' : bs'.Sublist ys') : Cut P before as bs as' bs' where
  memLeft x hx := hcut.memLeft x ((has.append has').subset hx)
  memRight y hy := hcut.memRight y ((hbs.append hbs').subset hy)
  sortedLeft := hcut.sortedLeft.sublist (has.append has')
  sortedRight := hcut.sortedRight.sublist (hbs.append hbs')
  stays x hx y hy := hcut.stays x (has.subset hx) y (hbs'.subset hy)
  moves y hy x hx := hcut.moves y (hbs.subset hy) x (has'.subset hx)

omit h in
/-- The next element of the first list is taken. -/
theorem take_left (hcut : Cut P before xs ys (x :: xs') ys')
    (hx : ∀ y ∈ ys', before y x = false) :
    Cut P before (xs ++ [x]) ys xs' ys' where
  memLeft := List.append_cons xs x xs' ▸ hcut.memLeft
  memRight := hcut.memRight
  sortedLeft := List.append_cons xs x xs' ▸ hcut.sortedLeft
  sortedRight := hcut.sortedRight
  stays := List.forall_mem_append.2 ⟨hcut.stays, List.forall_mem_singleton.2 hx⟩
  moves y hy x' hx' := hcut.moves y hy x' (List.mem_cons_of_mem x hx')

omit h in
/-- The next element of the second list is taken. -/
theorem take_right (hcut : Cut P before xs ys xs' (y :: ys'))
    (hy : ∀ x ∈ xs', before y x = true) :
    Cut P before xs (ys ++ [y]) xs' ys' where
  memLeft := hcut.memLeft
  memRight := List.append_cons ys y ys' ▸ hcut.memRight
  sortedLeft := hcut.sortedLeft
  sortedRight := List.append_cons ys y ys' ▸ hcut.sortedRight
  stays x hx y' hy' := hcut.stays x hx y' (List.mem_cons_of_mem y hy')
  moves := List.forall_mem_append.2 ⟨hcut.moves, List.forall_mem_singleton.2 hy⟩

omit h in
/-- The last element taken from the first list is left in its place. -/
theorem leave_left (hcut : Cut P before (xs ++ [x]) ys xs' ys')
    (hx : ∀ y ∈ ys, before y x = true) : Cut P before xs ys (x :: xs') ys' where
  memLeft := List.append_cons xs x xs' ▸ hcut.memLeft
  memRight := hcut.memRight
  sortedLeft := List.append_cons xs x xs' ▸ hcut.sortedLeft
  sortedRight := hcut.sortedRight
  stays x' hx' := hcut.stays x' (List.mem_append_left [x] hx')
  moves y hy := List.forall_mem_cons.2 ⟨hx y hy, hcut.moves y hy⟩

omit h in
/-- The last element taken from the second list is left in its place. -/
theorem leave_right (hcut : Cut P before xs (ys ++ [y]) xs' ys')
    (hy : ∀ x ∈ xs, before y x = false) :
    Cut P before xs ys xs' (y :: ys') where
  memLeft := hcut.memLeft
  memRight := List.append_cons ys y ys' ▸ hcut.memRight
  sortedLeft := hcut.sortedLeft
  sortedRight := List.append_cons ys y ys' ▸ hcut.sortedRight
  stays x hx := List.forall_mem_cons.2 ⟨hy x hx, hcut.stays x hx⟩
  moves y' hy' := hcut.moves y' (List.mem_append_left [y] hy')

end Cut

omit h in
/-- Two lists of which nothing has been taken. -/
theorem Cut.of_front (hxs : ∀ x ∈ xs, P x) (hys : ∀ y ∈ ys, P y)
    (hsortedX : Sorted before xs) (hsortedY : Sorted before ys) :
    Cut P before [] [] xs ys :=
  ⟨hxs, hys, hsortedX, hsortedY, nofun, nofun⟩

omit h in
/-- Two lists of which everything has been taken. -/
theorem Cut.of_back (hxs : ∀ x ∈ xs, P x) (hys : ∀ y ∈ ys, P y)
    (hsortedX : Sorted before xs) (hsortedY : Sorted before ys) :
    Cut P before xs ys [] [] := by
  refine ⟨?_, ?_, ?_, ?_, nofun, nofun⟩ <;> rwa [List.append_nil]

/-- What comes before the first of a sorted list comes before all of it. -/
theorem before_all {x y : α} (hy : P y) (hxs : ∀ x' ∈ x :: xs, P x')
    (hsorted : Sorted before (x :: xs)) (hyx : before y x = true) :
    ∀ x' ∈ x :: xs, before y x' = true := by
  obtain ⟨hx, hrest⟩ := List.forall_mem_cons.1 hxs
  exact List.forall_mem_cons.2 ⟨hyx, fun x' hx' =>
    h.before_of_le hy hx (hrest x' hx') hyx
      (List.rel_of_pairwise_cons hsorted hx')⟩

/-- What may stay in front of the first of a sorted list may stay in front of
all of it. -/
theorem before_none {x y : α} (hx : P x) (hys : ∀ y' ∈ y :: ys, P y')
    (hsorted : Sorted before (y :: ys)) (hyx : before y x = false) :
    ∀ y' ∈ y :: ys, before y' x = false := by
  obtain ⟨hy, hrest⟩ := List.forall_mem_cons.1 hys
  exact List.forall_mem_cons.2 ⟨hyx, fun y' hy' =>
    h.le_trans hx hy (hrest y' hy') hyx (List.rel_of_pairwise_cons hsorted hy')⟩

/-- If the last of a sorted list comes before an element, all of it does. -/
theorem all_before {x y : α} (hx : P x) (hys : ∀ y' ∈ ys ++ [y], P y')
    (hsorted : Sorted before (ys ++ [y])) (hyx : before y x = true) :
    ∀ y' ∈ ys ++ [y], before y' x = true := by
  obtain ⟨hrest, hy⟩ := List.forall_mem_append.1 hys
  refine List.forall_mem_append.2 ⟨fun y' hy' => ?_,
    List.forall_mem_singleton.2 hyx⟩
  exact h.before_of_lt (hrest y' hy') (hy y (List.mem_singleton.2 rfl)) hx
    ((List.pairwise_append.1 hsorted).2.2 y' hy' y (List.mem_singleton.2 rfl))
    hyx

/-- If the last of a sorted list may stay in front of an element, all of it
may. -/
theorem none_before {x y : α} (hy : P y) (hxs : ∀ x' ∈ xs ++ [x], P x')
    (hsorted : Sorted before (xs ++ [x])) (hyx : before y x = false) :
    ∀ x' ∈ xs ++ [x], before y x' = false := by
  obtain ⟨hrest, hx⟩ := List.forall_mem_append.1 hxs
  refine List.forall_mem_append.2 ⟨fun x' hx' => ?_,
    List.forall_mem_singleton.2 hyx⟩
  exact h.le_trans (hrest x' hx') (hx x (List.mem_singleton.2 rfl)) hy
    ((List.pairwise_append.1 hsorted).2.2 x' hx' x (List.mem_singleton.2 rfl))
    hyx

/-- **Merging from the front.** The next element is that of the second list if
it comes before the first of the first, and that of the first otherwise; what
is left is merged alike. -/
theorem endsIn_mergeFront (hxs : ∀ x ∈ xs, P x) (hys : ∀ y ∈ ys, P y)
    (hsortedX : Sorted before xs) (hsortedY : Sorted before ys) :
    EndsIn (IsSortOf P before (xs ++ ys)) (mergeFront less xs ys) := by
  fun_induction mergeFront less xs ys with
  | case1 ys => exact .pure ⟨hsortedY, .refl ys⟩
  | case2 xs => exact .pure ⟨hsortedX, by rw [List.append_nil]⟩
  | case3 x xs y ys ihRight ihLeft =>
    obtain ⟨hx, hxs'⟩ := List.forall_mem_cons.1 hxs
    obtain ⟨hy, hys'⟩ := List.forall_mem_cons.1 hys
    have hcut : Cut P before [] [] (x :: xs) (y :: ys) :=
      .of_front hxs hys hsortedX hsortedY
    refine (endsIn_isBefore h hy hx).bind fun b hb => ?_
    subst hb
    split
    · next hyx =>
      refine (ihRight hxs hys' hsortedX hsortedY.of_cons).bind fun zs hzs =>
        .pure ?_
      have htaken := hcut.take_right (before_all h hy hxs hsortedX hyx)
      exact htaken.append h ⟨List.pairwise_singleton _ y, .refl [y]⟩ hzs
    · next hyx =>
      rw [Bool.not_eq_true] at hyx
      refine (ihLeft hxs' hys hsortedX.of_cons hsortedY).bind fun zs hzs =>
        .pure ?_
      have htaken := hcut.take_left (before_none h hx hys hsortedY hyx)
      exact htaken.append h ⟨List.pairwise_singleton _ x, .refl [x]⟩ hzs

/-- **Merging from the back**, with everything held in reverse. The last
element of the first list is taken if the last of the second comes before it.
-/
theorem endsIn_mergeBack (hxs : ∀ x ∈ xs.reverse, P x)
    (hys : ∀ y ∈ ys.reverse, P y) (hsortedX : Sorted before xs.reverse)
    (hsortedY : Sorted before ys.reverse) :
    EndsIn (fun zs => IsSortOf P before (xs.reverse ++ ys.reverse) zs.reverse)
      (mergeBack less xs ys) := by
  fun_induction mergeBack less xs ys with
  | case1 ys => exact .pure ⟨hsortedY, .refl ys.reverse⟩
  | case2 xs =>
    exact .pure ⟨hsortedX, by rw [List.reverse_nil, List.append_nil]⟩
  | case3 x xs y ys ihLeft ihRight =>
    rw [List.reverse_cons] at hxs hys hsortedX hsortedY
    have hx := hxs x List.mem_concat_self
    have hy := hys y List.mem_concat_self
    have hcut : Cut P before (xs.reverse ++ [x]) (ys.reverse ++ [y]) [] [] :=
      .of_back hxs hys hsortedX hsortedY
    refine (endsIn_isBefore h hy hx).bind fun b hb => ?_
    subst hb
    split
    · next hyx =>
      refine (ihLeft (List.forall_mem_append.1 hxs).1 (List.reverse_cons ▸ hys)
        (List.pairwise_append.1 hsortedX).1 (List.reverse_cons ▸ hsortedY)).bind
        fun zs hzs => .pure ?_
      rw [List.reverse_cons] at hzs
      have hleft := hcut.leave_left (all_before h hx hys hsortedY hyx)
      have hwhole := hleft.append h hzs ⟨List.pairwise_singleton _ x, .refl [x]⟩
      simpa only [List.reverse_cons, List.append_nil] using hwhole
    · next hyx =>
      rw [Bool.not_eq_true] at hyx
      refine (ihRight (List.reverse_cons ▸ hxs) (List.forall_mem_append.1 hys).1
        (List.reverse_cons ▸ hsortedX) (List.pairwise_append.1 hsortedY).1).bind
        fun zs hzs => .pure ?_
      rw [List.reverse_cons] at hzs
      have hleft := hcut.leave_right (none_before h hy hxs hsortedX hyx)
      have hwhole := hleft.append h hzs ⟨List.pairwise_singleton _ y, .refl [y]⟩
      simpa only [List.reverse_cons, List.append_nil] using hwhole

/-- **Merging sorts** what is sorted already in two parts. It goes from the
front or from the back, according to which list is longer, and either way makes
the same list. -/
theorem endsIn_merge (hxs : ∀ x ∈ xs, P x) (hys : ∀ y ∈ ys, P y)
    (hsortedX : Sorted before xs) (hsortedY : Sorted before ys) :
    EndsIn (IsSortOf P before (xs ++ ys)) (merge less xs ys) := by
  unfold merge
  split
  · exact endsIn_mergeFront h hxs hys hsortedX hsortedY
  · have hback := @endsIn_mergeBack ε α P less before h xs.reverse ys.reverse
    simp only [List.reverse_reverse] at hback
    exact (hback hxs hys hsortedX hsortedY).bind fun _ hzs => .pure hzs

/-! ## Merging from both ends

A merge from both ends takes equally many elements from the front and from the
back, and looks at neither side from the other. Each side has a cut of its own.
The two cuts are of the same size, or the one at the back is an element larger;
and as a larger cut takes at least as much of either list, they are one cut or
differ in the element in the middle. -/

omit h in
/-- If one cut of a list is larger than another, some element is in front of
the first and behind the second. -/
theorem exists_mem_of_append {as as' bs bs' : List α}
    (heq : as ++ as' = bs ++ bs') (hlt : bs.length < as.length) :
    ∃ x ∈ as, x ∈ bs' := by
  rcases List.append_eq_append_iff.1 heq with ⟨cs, rfl, -⟩ | ⟨cs, rfl, rfl⟩
  · simp only [List.length_append] at hlt
    omega
  · cases cs with
    | nil => simp at hlt
    | cons x cs => exact ⟨x, by simp, by simp⟩

omit h in
/-- **A larger cut takes no less** of either list. The two ends of a merge do
not know of each other. That they have not passed each other in one list while
the other still has elements left is what this says of them. -/
theorem Cut.lengths_le {as bs as' bs' cs ds cs' ds' : List α}
    (hcut : Cut P before as bs as' bs') (hcut' : Cut P before cs ds cs' ds')
    (hleft : as ++ as' = cs ++ cs') (hright : bs ++ bs' = ds ++ ds')
    (hle : as.length + bs.length ≤ cs.length + ds.length) :
    as.length ≤ cs.length ∧ bs.length ≤ ds.length := by
  constructor
  · refine Nat.le_of_not_lt fun hlt => ?_
    obtain ⟨x, hx, hx'⟩ := exists_mem_of_append hleft hlt
    obtain ⟨y, hy, hy'⟩ := exists_mem_of_append hright.symm (by omega)
    exact Bool.false_ne_true
      ((hcut.stays x hx y hy').symm.trans (hcut'.moves y hy x hx'))
  · refine Nat.le_of_not_lt fun hlt => ?_
    obtain ⟨y, hy, hy'⟩ := exists_mem_of_append hright hlt
    obtain ⟨x, hx, hx'⟩ := exists_mem_of_append hleft.symm (by omega)
    exact Bool.false_ne_true
      ((hcut'.stays x hx y hy').symm.trans (hcut.moves y hy x hx'))

omit h in
/-- **What a merge has taken from the front** of two lists, in order, if `xs`
and `ys` are left of them. It is the invariant of a merge that goes forward:
what has been taken is sorted, and is as much of the two lists as comes before
all the rest. -/
def TakenFront (P : α → Prop) (before : α → α → Bool)
    (us vs xs ys front : List α) : Prop :=
  ∃ as bs, as ++ xs = us ∧ bs ++ ys = vs ∧ Cut P before as bs xs ys ∧
    IsSortOf P before (as ++ bs) front

omit h in
/-- **What a merge has taken from the back** of two lists, in order, if `xs`
and `ys` are left of them. It is the same with the sides exchanged, and a merge
that goes backward. -/
def TakenBack (P : α → Prop) (before : α → α → Bool)
    (us vs xs ys back : List α) : Prop :=
  ∃ as bs, xs ++ as = us ∧ ys ++ bs = vs ∧ Cut P before xs ys as bs ∧
    IsSortOf P before (as ++ bs) back

section Ends

variable {us vs front back : List α} {x y : α}

/-- The next from the left is taken if nothing on the right has to go before
it, -/
theorem TakenFront.left (htaken : TakenFront P before us vs (x :: xs) ys front)
    (hx : ∀ y ∈ ys, before y x = false) :
    TakenFront P before us vs xs ys (front ++ [x]) := by
  obtain ⟨as, bs, hleft, hright, hcut, hfront⟩ := htaken
  refine ⟨as ++ [x], bs, ?_, hright, hcut.take_left hx, ?_⟩
  · exact (List.append_cons as x xs).symm.trans hleft
  · have hone : Cut P before as bs [x] [] :=
      hcut.sublist (.refl as) (.refl bs) (by simp) (List.nil_sublist ys)
    simpa only [List.append_nil] using
      hone.append h hfront ⟨List.pairwise_singleton _ x, .refl [x]⟩

/-- and the next from the right if it goes before all that is left on the left.
-/
theorem TakenFront.right (htaken : TakenFront P before us vs xs (y :: ys) front)
    (hy : ∀ x ∈ xs, before y x = true) :
    TakenFront P before us vs xs ys (front ++ [y]) := by
  obtain ⟨as, bs, hleft, hright, hcut, hfront⟩ := htaken
  refine ⟨as, bs ++ [y], hleft, ?_, hcut.take_right hy, ?_⟩
  · exact (List.append_cons bs y ys).symm.trans hright
  · have hone : Cut P before as bs [] [y] :=
      hcut.sublist (.refl as) (.refl bs) (List.nil_sublist xs) (by simp)
    simpa only [List.append_nil, List.append_assoc] using
      hone.append h hfront ⟨List.pairwise_singleton _ y, .refl [y]⟩

/-- From the back it is the other way round: the last from the left is taken if
all on the right go before it, -/
theorem TakenBack.left (htaken : TakenBack P before us vs (xs ++ [x]) ys back)
    (hx : ∀ y ∈ ys, before y x = true) :
    TakenBack P before us vs xs ys (x :: back) := by
  obtain ⟨as, bs, hleft, hright, hcut, hback⟩ := htaken
  refine ⟨x :: as, bs, ?_, hright, hcut.leave_left hx, ?_⟩
  · exact (List.append_cons xs x as).trans hleft
  · have hone : Cut P before [x] [] as bs :=
      hcut.sublist (by simp) (List.nil_sublist ys) (.refl as) (.refl bs)
    exact hone.append h ⟨List.pairwise_singleton _ x, .refl [x]⟩ hback

/-- and the last from the right if none on the left has to stay behind it. -/
theorem TakenBack.right (htaken : TakenBack P before us vs xs (ys ++ [y]) back)
    (hy : ∀ x ∈ xs, before y x = false) :
    TakenBack P before us vs xs ys (y :: back) := by
  obtain ⟨as, bs, hleft, hright, hcut, hback⟩ := htaken
  refine ⟨as, y :: bs, hleft, ?_, hcut.leave_right hy, ?_⟩
  · exact (List.append_cons ys y bs).trans hright
  · have hone : Cut P before [] [y] as bs :=
      hcut.sublist (List.nil_sublist xs) (by simp) (.refl as) (.refl bs)
    exact hone.append h ⟨List.pairwise_singleton _ y, .refl [y]⟩ hback

/-- One more element from the front, if there is one. -/
theorem endsIn_takeOne_front (htaken : TakenFront P before us vs xs ys front)
    (hlt : front.length < us.length + vs.length) :
    EndsIn (fun taken => ∃ z, taken.1 = some z ∧
        TakenFront P before us vs taken.2.1 taken.2.2 (front ++ [z]))
      (takeOne less false xs ys) := by
  obtain ⟨as, bs, hleft, hright, hcut, hfront⟩ := id htaken
  have hxs := (List.forall_mem_append.1 hcut.memLeft).2
  have hys := (List.forall_mem_append.1 hcut.memRight).2
  have hsortedX := (List.pairwise_append.1 hcut.sortedLeft).2.1
  have hsortedY := (List.pairwise_append.1 hcut.sortedRight).2.1
  unfold takeOne
  split
  · next x xs y ys =>
    have hx := hxs x List.mem_cons_self
    have hy := hys y List.mem_cons_self
    refine (endsIn_isBefore h hy hx).bind fun b hb => .pure ?_
    subst hb
    cases hyx : before y x with
    | true => exact ⟨y, rfl, htaken.right h (before_all h hy hxs hsortedX hyx)⟩
    | false => exact ⟨x, rfl, htaken.left h (before_none h hx hys hsortedY hyx)⟩
  · next x xs => exact .pure ⟨x, rfl, htaken.left h nofun⟩
  · next y ys => exact .pure ⟨y, rfl, htaken.right h nofun⟩
  · have hsize := hfront.shuffle.perm.length_eq
    rw [← hleft, ← hright] at hlt
    simp only [List.length_append, List.length_nil] at hsize hlt
    omega

/-- One more element from the back, if there is one. -/
theorem endsIn_takeOne_back
    (htaken : TakenBack P before us vs xs.reverse ys.reverse back)
    (hlt : back.length < us.length + vs.length) :
    EndsIn (fun taken => ∃ z, taken.1 = some z ∧
        TakenBack P before us vs taken.2.1.reverse taken.2.2.reverse
        (z :: back))
      (takeOne less true xs ys) := by
  obtain ⟨as, bs, hleft, hright, hcut, hback⟩ := id htaken
  have hxs := (List.forall_mem_append.1 hcut.memLeft).1
  have hys := (List.forall_mem_append.1 hcut.memRight).1
  have hsortedX := (List.pairwise_append.1 hcut.sortedLeft).1
  have hsortedY := (List.pairwise_append.1 hcut.sortedRight).1
  unfold takeOne
  split
  · next x xs y ys =>
    simp only [List.reverse_cons] at htaken hxs hys hsortedX hsortedY
    have hx := hxs x List.mem_concat_self
    have hy := hys y List.mem_concat_self
    refine (endsIn_isBefore h hy hx).bind fun b hb => .pure ?_
    subst hb
    cases hyx : before y x with
    | true =>
      have hleave := htaken.left h (all_before h hx hys hsortedY hyx)
      exact ⟨x, rfl, List.reverse_cons ▸ hleave⟩
    | false =>
      have hleave := htaken.right h (none_before h hy hxs hsortedX hyx)
      exact ⟨y, rfl, List.reverse_cons ▸ hleave⟩
  · next x xs =>
    rw [List.reverse_cons] at htaken
    exact .pure ⟨x, rfl, htaken.left h nofun⟩
  · next y ys =>
    rw [List.reverse_cons (a := y)] at htaken
    exact .pure ⟨y, rfl, htaken.right h nofun⟩
  · have hsize := hback.shuffle.perm.length_eq
    rw [← hleft, ← hright] at hlt
    simp only [List.length_append, List.reverse_nil,
      List.length_nil] at hsize hlt
    omega

/-- **Merging from both ends**, so many elements from each. The induction is on
how many; both sides take one more in every step. Neither side looks at what
the other has taken: both could go on through all of the two lists, and only
the number keeps them apart. -/
theorem endsIn_mergeEnds {front back xsBack ysBack : List α} (n : Nat)
    (hfront : TakenFront P before us vs xs ys front.reverse)
    (hback : TakenBack P before us vs xsBack.reverse ysBack.reverse back)
    (hsize : front.length = back.length)
    (hle : front.length + n ≤ us.length + vs.length) :
    EndsIn (fun (front', back', xs', ys', xsBack') => ∃ ysBack',
        TakenFront P before us vs xs' ys' front' ∧
        TakenBack P before us vs xsBack'.reverse ysBack' back' ∧
        front'.length = front.length + n ∧ back'.length = front.length + n)
      (mergeEnds less xs ys xsBack ysBack front back n) := by
  induction n generalizing xs ys xsBack ysBack front back with
  | zero =>
    exact .pure ⟨ysBack.reverse, hfront, hback, List.length_reverse, hsize.symm⟩
  | succ n ih =>
    refine (endsIn_takeOne_front h hfront
      (by rw [List.length_reverse]; omega)).bind
      fun (first, xs, ys) ⟨x, hfirst, hfront⟩ => ?_
    refine (endsIn_takeOne_back h hback (by omega)).bind
      fun (last, xsBack, ysBack) ⟨y, hlast, hback⟩ => ?_
    subst hfirst hlast
    have hfront' : TakenFront P before us vs xs ys (x :: front).reverse :=
      List.reverse_cons ▸ hfront
    refine (ih hfront' hback (congrArg (· + 1) hsize) ?_).mono ?_
    · simp only [List.length_cons]
      omega
    · rintro ⟨front', back', xs', ys', xsBack'⟩ ⟨ysBack', hfront, hback,
        hsize, hsize'⟩
      simp only [List.length_cons] at hsize hsize'
      exact ⟨ysBack', hfront, hback, by omega, by omega⟩

omit h in
/-- What has been taken and what is left are all there was. -/
theorem TakenFront.length (htaken : TakenFront P before us vs xs ys front) :
    front.length + xs.length + ys.length = us.length + vs.length := by
  obtain ⟨as, bs, rfl, rfl, -, hfront⟩ := htaken
  have hsize := hfront.shuffle.perm.length_eq
  simp only [List.length_append] at hsize ⊢
  omega

omit h in
theorem TakenBack.length (htaken : TakenBack P before us vs xs ys back) :
    back.length + xs.length + ys.length = us.length + vs.length := by
  obtain ⟨as, bs, rfl, rfl, -, hback⟩ := htaken
  have hsize := hback.shuffle.perm.length_eq
  simp only [List.length_append] at hsize ⊢
  omega

/-- **The two sides meet**, if together they have taken everything. Their sizes
say that what the one has left is what the other has taken, in each of the two
lists (`Cut.lengths_le`). -/
theorem TakenFront.append (htaken : TakenFront P before us vs xs ys front)
    (htaken' : TakenBack P before us vs xs' ys' back)
    (hsize : front.length + back.length = us.length + vs.length) :
    IsSortOf P before (us ++ vs) (front ++ back) := by
  have hlength := htaken.length
  have hlength' := htaken'.length
  obtain ⟨as, bs, rfl, rfl, hcut, hfront⟩ := htaken
  obtain ⟨as', bs', hleft, hright, hcut', hback⟩ := htaken'
  have hfrontSize := hfront.shuffle.perm.length_eq
  have hbackSize := hback.shuffle.perm.length_eq
  have hleftSize := congrArg List.length hleft
  have hrightSize := congrArg List.length hright
  simp only [List.length_append] at *
  -- the two cuts are equally large, so they are one
  have hle := hcut.lengths_le hcut' hleft.symm hright.symm (by omega)
  have hge := hcut'.lengths_le hcut hleft hright (by omega)
  obtain ⟨rfl, rfl⟩ := List.append_inj hleft (by omega)
  obtain ⟨rfl, rfl⟩ := List.append_inj hright (by omega)
  exact hcut.append h hfront hback

/-- **The element in the middle**, if all others have been taken: it is the
next of the first list if that has one left between the two sides, and of the
second if not. -/
theorem TakenFront.middle (htaken : TakenFront P before us vs xs ys front)
    (htaken' : TakenBack P before us vs xs' ys' back)
    (hsize : front.length + back.length + 1 = us.length + vs.length) :
    ∃ z, (if us.length < xs.length + xs'.length then xs.head? else ys.head?)
      = some z ∧
      IsSortOf P before (us ++ vs) (front ++ [z] ++ back) := by
  have hlength := htaken.length
  have hlength' := htaken'.length
  obtain ⟨as, bs, hleft, hright, hcut, hfront⟩ := id htaken
  obtain ⟨as', bs', hleft', hright', hcut', hback⟩ := id htaken'
  have hleftSize := congrArg List.length hleft
  have hrightSize := congrArg List.length hright
  have hleftSize' := congrArg List.length hleft'
  have hrightSize' := congrArg List.length hright'
  simp only [List.length_append] at hleftSize hrightSize hleftSize' hrightSize'
  have hle :=
    hcut.lengths_le hcut' (hleft.trans hleft'.symm) (hright.trans hright'.symm)
    (by omega)
  split
  · next hlt =>
    cases xs with
    | nil => simp only [List.length_nil] at hleftSize hlt; omega
    | cons x xs =>
      simp only [List.length_cons] at hlength hleftSize hlt
      have hends : as ++ [x] ++ xs = xs' ++ as' :=
        (List.append_cons as x xs).symm.trans (hleft.trans hleft'.symm)
      obtain ⟨rfl, -⟩ := List.append_inj hends
        (by simp only [List.length_append, List.length_singleton]; omega)
      obtain ⟨-, rfl⟩ := List.append_inj (hright.trans hright'.symm) (by omega)
      have hx := hcut'.stays x List.mem_concat_self
      have hmore := htaken.left h hx
      refine ⟨x, rfl, hmore.append h htaken' ?_⟩
      simp only [List.length_append, List.length_singleton]
      omega
  · next hge =>
    cases ys with
    | nil => simp only [List.length_nil] at hrightSize hlength; omega
    | cons y ys =>
      simp only [List.length_cons] at hlength hrightSize
      have hends : bs ++ [y] ++ ys = ys' ++ bs' :=
        (List.append_cons bs y ys).symm.trans (hright.trans hright'.symm)
      obtain ⟨rfl, -⟩ := List.append_inj hends
        (by simp only [List.length_append, List.length_singleton]; omega)
      obtain ⟨-, rfl⟩ := List.append_inj (hleft.trans hleft'.symm) (by omega)
      have hy := hcut'.moves y List.mem_concat_self
      have hmore := htaken.right h hy
      refine ⟨y, rfl, hmore.append h htaken' ?_⟩
      simp only [List.length_append, List.length_singleton]
      omega

end Ends

/-- **Merging from both ends sorts** what is sorted already in two parts. With
an even number of elements the two sides meet, and with an odd number one
element is left between them (`TakenFront.middle`). This is where the order is
needed: without one the ends may miss each other. -/
theorem endsIn_mergeHalves (hxs : ∀ x ∈ xs, P x) (hys : ∀ y ∈ ys, P y)
    (hsortedX : Sorted before xs) (hsortedY : Sorted before ys) :
    EndsIn (IsSortOf P before (xs ++ ys)) (mergeHalves less xs ys) := by
  have hfront : TakenFront P before xs ys xs ys [].reverse :=
    ⟨[], [], rfl, rfl, .of_front hxs hys hsortedX hsortedY, .nil, .refl []⟩
  have hback :
      TakenBack P before xs ys xs.reverse.reverse ys.reverse.reverse [] := by
    rw [List.reverse_reverse, List.reverse_reverse]
    exact ⟨[], [], List.append_nil xs, List.append_nil ys,
      .of_back hxs hys hsortedX hsortedY, .nil, .refl []⟩
  refine (endsIn_mergeEnds h _ hfront hback rfl ?_).bind ?_
  · simp only [List.length_nil]
    omega
  · rintro ⟨front, back, xs', ys', xsBack⟩ ⟨ysBack, hfront, hback,
      hsize, hsize'⟩
    simp only [List.length_nil, Nat.zero_add] at hsize hsize'
    refine .pure ?_
    split
    · exact hfront.append h hback (by omega)
    · obtain ⟨z, hz, hwhole⟩ := hfront.middle h hback (by omega)
      rw [List.length_reverse] at hz
      rw [hz]
      exact hwhole

/-! ## Short lists

Four elements are sorted by five comparisons: two pairs, then the least and the
greatest of all, then the two that are left. A short list begins each half with
four sorted elements, if it is not too short for that, and inserts the
others. -/

theorem isSortOf_pair {p q : α} (hp : P p) (hq : P q) :
    IsSortOf P before [p, q] (if before q p then [q, p] else [p, q]) := by
  split
  · next hqp =>
    refine ⟨List.pairwise_pair.2 (h.asymm hq hp hqp), ?_⟩
    exact .ahead h (List.forall_mem_singleton.2 hp) hq
      (List.forall_mem_singleton.2 hqp)
  · next hqp => exact ⟨List.pairwise_pair.2 (eq_false_of_ne_true hqp), .refl _⟩

/-- Two sorted pairs make four sorted elements. -/
theorem isSortOf_pairs {a b c d : α} (ha : P a) (hb : P b) (hc : P c) (hd : P d)
    (hba : before b a = false) (hdc : before d c = false) :
    IsSortOf P before [a, b, c, d]
      (let low := if before c a then c else a
       let high := if before d b then b else d
       let left := if before c a then a else if before d b then c else b
       let right := if before d b then d else if before c a then b else c
       if before right left then [low, right, left, high]
       else [low, left, right, high]) := by
  have hone : ∀ {x y : α}, P x → P y → before y x = true →
      Shuffles P before [x, y] [y, x] := fun hx hy hyx =>
    .ahead h (List.forall_mem_singleton.2 hx) hy
      (List.forall_mem_singleton.2 hyx)
  cases hca : before c a <;> cases hdb : before d b <;>
    simp only [Bool.false_eq_true, if_false, if_true]
  · have hda := h.le_trans ha hb hd hba hdb
    split
    · next hcb =>
      have hbc := h.asymm hc hb hcb
      exact ⟨by simp [*], ((hone hb hc hcb).cons a).append_right [d]⟩
    · next hcb =>
      rw [Bool.not_eq_true] at hcb
      exact ⟨by simp [*], .refl _⟩
  · have hcb := h.before_of_lt hc hd hb hdc hdb
    have hda := h.le_trans ha hc hd hca hdc
    have hbc := h.asymm hc hb hcb
    have hbd := h.asymm hd hb hdb
    have hmove : Shuffles P before ([b] ++ [c, d]) ([c, d] ++ [b]) :=
      .swap h (by simp [*]) (by simp [*]) (by simp [*])
    rw [if_neg (by simp [hdc])]
    exact ⟨by simp [*], hmove.cons a⟩
  · have hcb := h.before_of_le hc ha hb hca hba
    have hda := h.le_trans ha hb hd hba hdb
    have hac := h.asymm hc ha hca
    have hbc := h.asymm hc hb hcb
    have hmove : Shuffles P before ([a, b] ++ [c]) (c :: [a, b]) :=
      .ahead h (by simp [*]) hc (by simp [*])
    rw [if_neg (by simp [hba])]
    exact ⟨by simp [*], hmove.append_right [d]⟩
  · have hcb := h.before_of_le hc ha hb hca hba
    have hac := h.asymm hc ha hca
    have hbc := h.asymm hc hb hcb
    have hbd := h.asymm hd hb hdb
    have hmove : Shuffles P before ([a, b] ++ [c]) (c :: [a, b]) :=
      .ahead h (by simp [*]) hc (by simp [*])
    split
    · next hda =>
      have had := h.asymm hd ha hda
      have hmoves : Shuffles P before ([a, b] ++ [c, d]) ([c, d] ++ [a, b]) :=
        .swap h (by simp [*]) (by simp [*]) (by simp [*])
      exact ⟨by simp [*], hmoves⟩
    · next hda =>
      rw [Bool.not_eq_true] at hda
      exact ⟨by simp [*],
        (hmove.append_right [d]).trans ((hone hb hd hdb).append_left [c, a])⟩

/-- **Four elements are sorted by five comparisons.** The first two pairs are
sorted; the least and the greatest of all are then found among their ends, and
the other two are compared with each other. -/
theorem endsIn_sortFour {p q r s : α} (hp : P p) (hq : P q) (hr : P r)
    (hs : P s) :
    EndsIn (IsSortOf P before [p, q, r, s]) (sortFour less p q r s) := by
  have hpairs : ∀ {a b c d}, IsSortOf P before [p, q] [a, b] →
      IsSortOf P before [r, s] [c, d] →
      EndsIn (IsSortOf P before [p, q, r, s]) (do
        let lowRight ← isBefore less c a
        let highLeft ← isBefore less d b
        let low := if lowRight then c else a
        let high := if highLeft then b else d
        let left := if lowRight then a else if highLeft then c else b
        let right := if highLeft then d else if lowRight then b else c
        let swapMiddle ← isBefore less right left
        return if swapMiddle then [low, right, left, high]
          else [low, left, right, high]) := by
    intro a b c d hfirst hlast
    have hmem := hfirst.shuffle.forall_mem (Q := P) (by simp [*])
    have hmem' := hlast.shuffle.forall_mem (Q := P) (by simp [*])
    simp only [List.forall_mem_cons, List.not_mem_nil] at hmem hmem'
    obtain ⟨ha, hb, -⟩ := hmem
    obtain ⟨hc, hd, -⟩ := hmem'
    refine (endsIn_isBefore h hc ha).bind fun lowRight hlow => ?_
    refine (endsIn_isBefore h hd hb).bind fun highLeft hhigh => ?_
    subst hlow hhigh
    refine (endsIn_isBefore h ?_ ?_).bind fun swapMiddle hswap => .pure ?_
    · split
      · exact hd
      · split <;> assumption
    · split
      · exact ha
      · split <;> assumption
    subst hswap
    have hba :=
      List.rel_of_pairwise_cons hfirst.sorted (List.mem_singleton.2 rfl)
    have hdc :=
      List.rel_of_pairwise_cons hlast.sorted (List.mem_singleton.2 rfl)
    have hfour := isSortOf_pairs h ha hb hc hd hba hdc
    exact ⟨hfour.sorted,
      (hfirst.shuffle.append hlast.shuffle).trans hfour.shuffle⟩
  refine (endsIn_isBefore h hq hp).bind fun swapFirst hfirst => ?_
  refine (endsIn_isBefore h hs hr).bind fun swapLast hlast => ?_
  have hpair := isSortOf_pair h hp hq
  have hpair' := isSortOf_pair h hr hs
  rw [← hfirst] at hpair
  rw [← hlast] at hpair'
  cases swapFirst <;> cases swapLast <;> exact hpairs hpair hpair'

/-- What a half begins with, and the rest of it. -/
theorem endsIn_startHalf (whole : Nat) (hxs : ∀ x ∈ xs, P x) :
    EndsIn (fun found => Sorted before found.1.reverse ∧
        Shuffles P before xs (found.1.reverse ++ found.2))
      (startHalf less whole xs) := by
  unfold startHalf
  split
  · next p q r s rest =>
    split
    · exact .pure ⟨.nil, .refl _⟩
    · simp only [List.forall_mem_cons] at hxs
      obtain ⟨hp, hq, hr, hs, -⟩ := hxs
      refine (endsIn_sortFour h hp hq hr hs).bind fun sorted hsorted => .pure ?_
      simp only [List.reverse_reverse]
      exact ⟨hsorted.sorted, hsorted.shuffle.append_right rest⟩
  · exact .pure ⟨.nil, .refl _⟩

/-- **Sorting a short list** sorts: both halves are sorted, and then merged.
Each half begins with four sorted elements, or with what there is, and the
others are put in their places behind them. -/
theorem endsIn_shortSort (hxs : ∀ x ∈ xs, P x) :
    EndsIn (IsSortOf P before xs) (shortSort less xs) := by
  have hfirst : ∀ x ∈ xs.take (xs.length / 2), P x := fun x hx =>
    hxs x (List.mem_of_mem_take hx)
  have hsecond : ∀ x ∈ xs.drop (xs.length / 2), P x := fun x hx =>
    hxs x (List.mem_of_mem_drop hx)
  have hhalf : ∀ {half start rest : List α}, (∀ x ∈ half, P x) →
      Sorted before start.reverse →
      Shuffles P before half (start.reverse ++ rest) →
      EndsIn (fun zs => IsSortOf P before half zs.reverse)
        (placeAll less start rest) := by
    intro half start rest hmem hstart hshuffle
    obtain ⟨hmemStart, hmemRest⟩ :=
      List.forall_mem_append.1 (hshuffle.forall_mem hmem)
    refine (endsIn_placeAll h hmemRest (fun x hx => ?_) hstart).mono
      fun zs hzs => ?_
    · exact hmemStart x (List.mem_reverse.2 hx)
    · exact ⟨hzs.sorted, hshuffle.trans hzs.shuffle⟩
  unfold shortSort
  rw [List.splitAt_eq]
  refine (endsIn_startHalf h xs.length hfirst).bind fun first hstart => ?_
  refine (endsIn_startHalf h xs.length hsecond).bind fun second hstart' => ?_
  refine (hhalf hfirst hstart.1 hstart.2).bind fun zs hzs => ?_
  refine (hhalf hsecond hstart'.1 hstart'.2).bind fun zs' hzs' => ?_
  refine (endsIn_mergeHalves h (hzs.shuffle.forall_mem hfirst)
    (hzs'.shuffle.forall_mem hsecond) hzs.sorted hzs'.sorted).mono
    fun all hall => ?_
  refine ⟨hall.sorted, Shuffles.trans ?_ hall.shuffle⟩
  have hhalves := hzs.shuffle.append hzs'.shuffle
  rwa [List.take_append_drop] at hhalves

end Ways

end StreamScript.Sort
