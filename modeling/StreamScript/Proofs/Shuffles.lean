import StreamScript.Sort.Runs

/-!
# Lists sorted in the one stable way

Where elements have an order there is one way to sort them and keep equal ones
in their places. This module says what that means for two lists, without saying
how the one is made from the other: the second is sorted, and it is the first
with elements moved, but none past an element that it is tied with
(`IsSortOf`).

`Shuffles` is the second half of it. Every step of a stable sort moves a
stretch of elements past another one, all of whose elements come strictly
before. That is one lemma (`Shuffles.swap`), and an insertion, a merge, a
partition and the turning around of a run that descends are instances of it.
Two sorted lists that are shuffles of each other are the same list
(`Shuffles.eq_of_sorted`), so that a sort need not be compared with another one
step by step.

The comparisons are an order on the elements at hand only, those with a property
`P`, so each lemma asks that its lists hold no others. That what comes out of a
step holds no others again is part of `Shuffles`.
-/

namespace StreamScript.Sort

variable {ε α : Type}

/-! ## An order on some elements

`before` is what `less` says where it says anything, and it is a strict order
whose ties are an equivalence. The last law is the contrapositive of the
transitivity of "not after": if one element comes before another, any third one
comes behind the first or before the second. -/

/-- **An order on the elements with a property**, asked for by comparisons that
might fail and do not. -/
structure IsOrder (P : α → Prop) (less : α → α → Except ε Bool)
    (before : α → α → Bool) : Prop where
  compared : ∀ {x y}, P x → P y → less x y = .ok (before x y)
  asymm : ∀ {x y}, P x → P y → before x y = true → before y x = false
  through : ∀ {x y z}, P x → P y → P z → before x z = true →
    before x y = true ∨ before y z = true

/-- Neither of two elements comes before the other. -/
def tied (before : α → α → Bool) (x y : α) : Bool :=
  !before x y && !before y x

/-- No element comes before one that stands in front of it. -/
abbrev Sorted (before : α → α → Bool) (xs : List α) : Prop :=
  xs.Pairwise fun x y => before y x = false

namespace IsOrder

variable {P : α → Prop} {less : α → α → Except ε Bool}
  {before : α → α → Bool} {x y z : α}

theorem irrefl (h : IsOrder P less before) (hx : P x) : before x x = false := by
  cases hxx : before x x with
  | false => rfl
  | true => exact hxx.symm.trans (h.asymm hx hx hxx)

/-- What comes before an element comes before those that stay behind it. -/
theorem before_of_le (h : IsOrder P less before) (hx : P x) (hy : P y)
    (hz : P z) (hxy : before x y = true) (hzy : before z y = false) :
    before x z = true :=
  (h.through hx hz hy hxy).resolve_right (by rw [hzy]; exact Bool.false_ne_true)

/-- What stays in front of an element comes before those that it comes
before. -/
theorem before_of_lt (h : IsOrder P less before) (hx : P x) (hy : P y)
    (hz : P z) (hyx : before y x = false) (hyz : before y z = true) :
    before x z = true :=
  (h.through hy hx hz hyz).resolve_left (by rw [hyx]; exact Bool.false_ne_true)

theorem trans (h : IsOrder P less before) (hx : P x) (hy : P y) (hz : P z)
    (hxy : before x y = true) (hyz : before y z = true) : before x z = true :=
  h.before_of_le hx hy hz hxy (h.asymm hy hz hyz)

theorem le_trans (h : IsOrder P less before) (hx : P x) (hy : P y) (hz : P z)
    (hyx : before y x = false) (hzy : before z y = false) :
    before z x = false := by
  cases hzx : before z x with
  | false => rfl
  | true =>
    rcases h.through hz hy hx hzx with hc | hc
    · exact hc.symm.trans hzy
    · exact hc.symm.trans hyx

theorem tied_trans (h : IsOrder P less before) (hx : P x) (hy : P y) (hz : P z)
    (hxy : tied before x y = true) (hxz : tied before x z = true) :
    before z y = false := by
  simp only [tied, Bool.and_eq_true, Bool.not_eq_true'] at hxy hxz
  exact h.le_trans hy hx hz hxy.1 hxz.2

end IsOrder

/-! ## Moving elements past others

What a stable sort may not do is to change the order of tied elements. For every
element of the order, those tied with it stand in the one list as they do in the
other; this is what `Shuffles` adds to a permutation. It is kept by appending
and is transitive, so a chain of moves need not be looked at as a whole. -/

/-- **One list is another with elements moved**, but none past a tied one. -/
structure Shuffles (P : α → Prop) (before : α → α → Bool) (xs ys : List α) :
    Prop where
  perm : xs.Perm ys
  ties : ∀ a, P a → xs.filter (tied before a) = ys.filter (tied before a)

section Shuffling

variable {P : α → Prop} {less : α → α → Except ε Bool} {before : α → α → Bool}
  {xs ys zs xs' ys' : List α}

namespace Shuffles

@[refl]
theorem refl (xs : List α) : Shuffles P before xs xs :=
  ⟨.refl xs, fun _ _ => rfl⟩

theorem symm (h : Shuffles P before xs ys) : Shuffles P before ys xs :=
  ⟨h.perm.symm, fun a ha => (h.ties a ha).symm⟩

theorem trans (h : Shuffles P before xs ys) (h' : Shuffles P before ys zs) :
    Shuffles P before xs zs :=
  ⟨h.perm.trans h'.perm, fun a ha => (h.ties a ha).trans (h'.ties a ha)⟩

theorem append (h : Shuffles P before xs ys) (h' : Shuffles P before xs' ys') :
    Shuffles P before (xs ++ xs') (ys ++ ys') where
  perm := h.perm.append h'.perm
  ties a ha := by
    rw [List.filter_append, List.filter_append, h.ties a ha, h'.ties a ha]

theorem append_left (zs : List α) (h : Shuffles P before xs ys) :
    Shuffles P before (zs ++ xs) (zs ++ ys) :=
  (Shuffles.refl zs).append h

theorem append_right (zs : List α) (h : Shuffles P before xs ys) :
    Shuffles P before (xs ++ zs) (ys ++ zs) :=
  h.append (Shuffles.refl zs)

theorem cons (x : α) (h : Shuffles P before xs ys) :
    Shuffles P before (x :: xs) (x :: ys) :=
  h.append_left [x]

theorem forall_mem (h : Shuffles P before xs ys) {Q : α → Prop}
    (hxs : ∀ x ∈ xs, Q x) : ∀ y ∈ ys, Q y :=
  fun y hy => hxs y (h.perm.mem_iff.2 hy)

/-- **A stretch of elements moves past another** all of whose elements come
before all of its own. -/
theorem swap (h : IsOrder P less before) (hxs : ∀ x ∈ xs, P x)
    (hys : ∀ y ∈ ys, P y) (hlt : ∀ x ∈ xs, ∀ y ∈ ys, before y x = true) :
    Shuffles P before (xs ++ ys) (ys ++ xs) where
  perm := List.perm_append_comm
  ties a ha := by
    rw [List.filter_append, List.filter_append]
    -- no element is tied with members of both stretches
    by_cases hnone : ∀ x ∈ xs, tied before a x = false
    · have hempty : xs.filter (tied before a) = [] :=
        List.filter_eq_nil_iff.2 fun x hx => by simp [hnone x hx]
      rw [hempty, List.nil_append, List.append_nil]
    · have hempty : ys.filter (tied before a) = [] := by
        refine List.filter_eq_nil_iff.2 fun y hy htied => hnone fun x hx => ?_
        refine Bool.eq_false_iff.2 fun htied' => ?_
        have hle := h.tied_trans ha (hxs x hx) (hys y hy) htied' htied
        exact Bool.false_ne_true (hle.symm.trans (hlt x hx y hy))
      rw [hempty, List.nil_append, List.append_nil]

/-- An element moves ahead of those that it comes before. -/
theorem ahead (h : IsOrder P less before) {y : α} (hxs : ∀ x ∈ xs, P x)
    (hy : P y) (hlt : ∀ x ∈ xs, before y x = true) :
    Shuffles P before (xs ++ [y]) (y :: xs) :=
  swap h hxs (List.forall_mem_singleton.2 hy) fun x hx _ hmem =>
    List.mem_singleton.1 hmem ▸ hlt x hx

/-- **Sorted lists are told apart by shuffling alone.** -/
theorem eq_of_sorted (h : IsOrder P less before) (hxs : ∀ x ∈ xs, P x)
    (hsorted : Sorted before xs) (hsorted' : Sorted before ys)
    (hshuffle : Shuffles P before xs ys) : xs = ys := by
  induction xs generalizing ys with
  | nil => exact (List.nil_perm.1 hshuffle.perm).symm
  | cons x xs ih =>
    cases ys with
    | nil => exact absurd hshuffle.perm.symm (List.not_perm_nil_cons x xs)
    | cons y ys =>
      have hys := hshuffle.forall_mem hxs
      have hx := hxs x List.mem_cons_self
      have hy := hys y List.mem_cons_self
      -- each head stands in the other list, so neither comes before the other
      have hyx : before y x = false := by
        rcases List.mem_cons.1 (hshuffle.perm.mem_iff.2 List.mem_cons_self) with
          rfl | hmem
        · exact h.irrefl hx
        · exact List.rel_of_pairwise_cons hsorted hmem
      have hxy : before x y = false := by
        rcases List.mem_cons.1 (hshuffle.perm.mem_iff.1 List.mem_cons_self) with
          rfl | hmem
        · exact h.irrefl hx
        · exact List.rel_of_pairwise_cons hsorted' hmem
      have htied : tied before x y = true := by simp [tied, hxy, hyx]
      have hself : tied before x x = true := by simp [tied, h.irrefl hx]
      have hheads := hshuffle.ties x hx
      rw [List.filter_cons_of_pos hself,
        List.filter_cons_of_pos htied] at hheads
      obtain rfl := (List.cons.inj hheads).1
      have htail : Shuffles P before xs ys := by
        refine ⟨hshuffle.perm.cons_inv, fun a ha => ?_⟩
        have hties := hshuffle.ties a ha
        rw [List.filter_cons, List.filter_cons] at hties
        split at hties
        · exact (List.cons.inj hties).2
        · exact hties
      rw [ih (List.forall_mem_cons.1 hxs).2 hsorted.of_cons hsorted'.of_cons htail]

end Shuffles

/-- Two sorted lists, of which the second may stand behind the first. -/
theorem Sorted.append (hxs : Sorted before xs) (hys : Sorted before ys)
    (h : ∀ x ∈ xs, ∀ y ∈ ys, before y x = false) : Sorted before (xs ++ ys) :=
  List.pairwise_append.2 ⟨hxs, hys, h⟩

/-- A list of which every element comes before those in front of it is turned
around. -/
theorem Shuffles.reverse (h : IsOrder P less before) (hxs : ∀ x ∈ xs, P x)
    (hdescends : xs.Pairwise fun x y => before y x = true) :
    Shuffles P before xs xs.reverse := by
  induction xs with
  | nil => exact .refl []
  | cons x xs ih =>
    obtain ⟨hx, hrest⟩ := List.forall_mem_cons.1 hxs
    obtain ⟨hbefore, htail⟩ := List.pairwise_cons.1 hdescends
    rw [List.reverse_cons]
    have hmove : Shuffles P before ([x] ++ xs) (xs ++ [x]) :=
      .swap h (List.forall_mem_singleton.2 hx) hrest fun x' hx' y hy =>
        List.mem_singleton.1 hx' ▸ hbefore y hy
    exact hmove.trans ((ih hrest htail).append_right [x])

/-! ## Sorted lists -/

/-- **One list is another one sorted**, with tied elements in their places. -/
structure IsSortOf (P : α → Prop) (before : α → α → Bool) (xs ys : List α) :
    Prop where
  sorted : Sorted before ys
  shuffle : Shuffles P before xs ys

/-! ## The merge sort of the library

What the library knows of its merge sort it knows where the comparisons are an
order on a whole type. Here they are one on the elements of the list, so the
list is taken as one of its own members (`staysAmong`), and what comes of it is
taken back to the elements (`mergeSort_eq_map`). -/

/-- Whether a member of the list may stay in front of another. -/
def staysAmong (before : α → α → Bool) (xs : List α) (x y : { x // x ∈ xs }) :
    Bool :=
  !before y x

theorem staysAmong_trans (h : IsOrder P less before) (hxs : ∀ x ∈ xs, P x)
    (x y z : { x // x ∈ xs }) (hxy : staysAmong before xs x y = true)
    (hyz : staysAmong before xs y z = true) :
    staysAmong before xs x z = true := by
  simp only [staysAmong, Bool.not_eq_true'] at hxy hyz ⊢
  exact h.le_trans (hxs x x.2) (hxs y y.2) (hxs z z.2) hxy hyz

theorem staysAmong_total (h : IsOrder P less before) (hxs : ∀ x ∈ xs, P x)
    (x y : { x // x ∈ xs }) :
    (staysAmong before xs x y || staysAmong before xs y x) = true := by
  cases hxy : before (x : α) y with
  | false => simp [staysAmong, hxy]
  | true => simp [staysAmong, h.asymm (hxs x x.2) (hxs y y.2) hxy]

theorem mergeSort_eq_map (before : α → α → Bool) (xs : List α) :
    xs.mergeSort (fun x y => !before y x)
      = (xs.attach.mergeSort (staysAmong before xs)).map Subtype.val := by
  calc xs.mergeSort (fun x y => !before y x)
    _ = (xs.attach.map Subtype.val).mergeSort fun x y => !before y x := by
      rw [List.attach_map_subtype_val]
    _ = (xs.attach.mergeSort (staysAmong before xs)).map Subtype.val :=
      (List.map_mergeSort (f := Subtype.val) fun _ _ _ _ => rfl).symm

/-- The elements tied with a given one are a sorted part of the list, so a
stable sort leaves them as they are. -/
theorem filter_tied_mergeSort (h : IsOrder P less before)
    (hxs : ∀ x ∈ xs, P x) {a : α} (ha : P a) :
    xs.filter (tied before a)
      = (xs.mergeSort fun x y => !before y x).filter (tied before a) := by
  let tiedHere : { x // x ∈ xs } → Bool := fun x => tied before a x
  have hpart : (xs.attach.filter tiedHere).map Subtype.val
      = xs.filter (tied before a) :=
    calc (xs.attach.filter tiedHere).map Subtype.val
      _ = (xs.attach.map Subtype.val).filter (tied before a) :=
        (List.filter_map (p := tied before a) (f := Subtype.val)).symm
      _ = xs.filter (tied before a) := by rw [List.attach_map_subtype_val]
  have hties : (xs.attach.filter tiedHere).Pairwise fun x y =>
      staysAmong before xs x y = true := by
    refine List.pairwise_of_forall_mem_list fun x hx y hy => ?_
    have hle := h.tied_trans ha (hxs x x.2) (hxs y y.2) (List.mem_filter.1 hx).2
      (List.mem_filter.1 hy).2
    exact congrArg (!·) hle
  have hsub := (List.sublist_mergeSort (staysAmong_trans h hxs)
    (staysAmong_total h hxs) hties List.filter_sublist).map Subtype.val
  rw [hpart, ← mergeSort_eq_map] at hsub
  have hsub' := hsub.filter (tied before a)
  rw [List.filter_filter] at hsub'
  simp only [Bool.and_self] at hsub'
  exact hsub'.eq_of_length ((List.mergeSort_perm ..).symm.filter _).length_eq

/-- **The merge sort of the library sorts**, and keeps tied elements in their
places. -/
theorem isSortOf_mergeSort (h : IsOrder P less before) (hxs : ∀ x ∈ xs, P x) :
    IsSortOf P before xs (xs.mergeSort fun x y => !before y x) := by
  refine ⟨?_, (List.mergeSort_perm ..).symm, fun a ha =>
    filter_tied_mergeSort h hxs ha⟩
  rw [mergeSort_eq_map]
  refine List.pairwise_map.2 ?_
  have hsorted := List.pairwise_mergeSort (staysAmong_trans h hxs)
    (staysAmong_total h hxs) xs.attach
  exact hsorted.imp fun hxy => by
    simpa only [staysAmong, Bool.not_eq_true'] using hxy

end Shuffling

end StreamScript.Sort
