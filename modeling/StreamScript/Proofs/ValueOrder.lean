import StreamScript.Run.Fold
import StreamScript.Proofs.WellFormed

/-!
# Where the order of values is one

Values without maps can all be compared, and comparing them from the other side
turns the answer around. For an order that is not enough: what is not greater
than something that is not greater than a third value should not be greater
than the third. A number that is none stands in the way of that, since it
compares equal to every number. It does so wherever two numbers that differ can
be found on its two sides, and nothing else does (`Value.orderLaws_iff`).

Three comparisons fit together if the one of the outer two is what the other
two make it (`Chained`). This is what is carried through the parts of a
comparison that are looked at one after the other, kinds before values, the
lower case of texts before the texts, elements of arrays one by one: if the
first parts of three comparisons chain, and so do the second ones wherever they
are looked at, then the whole ones do (`Chained.then`).
-/

namespace StreamScript

/-! ## Comparisons of three

That an order is transitive cannot be carried through the parts of a comparison
as it stands: two values may be equal in their first parts without being equal.
What can be carried through says which comparison the outer one is, if the
inner two go up or stay. -/

/-- **Comparisons that chain**: of a first with a second, of the second with a
third, and of the first with the third. Where the first two go no way down, the
third is equal only if both are. -/
structure Chained (first second outer : Ordering) : Prop where
  outer_eq : first ≠ .gt → second ≠ .gt → outer = first.then second

namespace Chained

variable {α : Type} {o p q o' p' q' : Ordering}

/-- Three values that are equal. -/
theorem of_eq : Chained .eq .eq .eq :=
  ⟨fun _ _ => rfl⟩

/-- The comparisons of an order chain. -/
theorem of_cmp (cmp : α → α → Ordering) [Std.TransCmp cmp] (a b c : α) :
    Chained (cmp a b) (cmp b c) (cmp a c) := by
  refine ⟨fun hab hbc => ?_⟩
  cases ho : cmp a b with
  | gt => exact absurd ho hab
  | eq => exact Std.TransCmp.congr_left ho
  | lt =>
    cases hp : cmp b c with
    | gt => exact absurd hp hbc
    | eq => exact Std.TransCmp.lt_of_lt_of_eq ho hp
    | lt => exact Std.TransCmp.lt_trans ho hp

/-- **What is looked at one after the other** chains if its parts do. The
second parts count only where all first parts are equal. Kinds before values,
lower-case texts before the texts themselves, elements before lengths: most
comparisons of values are of this form, and this is the one lemma about all of
them. -/
theorem «then» (h : Chained o p q)
    (h' : o = .eq → p = .eq → q = .eq → Chained o' p' q') :
    Chained (o.then o') (p.then p') (q.then q') := by
  refine ⟨fun hfirst hsecond => ?_⟩
  cases o with
  | gt => exact absurd rfl hfirst
  | lt =>
    cases p with
    | gt => exact absurd rfl hsecond
    | lt | eq =>
      obtain rfl : q = .lt := h.outer_eq nofun nofun
      rfl
  | eq =>
    cases p with
    | gt => exact absurd rfl hsecond
    | lt =>
      obtain rfl : q = .lt := h.outer_eq nofun nofun
      cases o' with
      | gt => exact absurd rfl hfirst
      | lt | eq => rfl
    | eq =>
      obtain rfl : q = .eq := h.outer_eq nofun nofun
      exact (h' rfl rfl rfl).outer_eq hfirst hsecond

/-- What is not greater twice is not greater. -/
theorem ne_gt (h : Chained o p q) (ho : o ≠ .gt) (hp : p ≠ .gt) : q ≠ .gt := by
  rw [h.outer_eq ho hp]
  cases o <;> cases p <;> simp at ho hp ⊢

end Chained

/-! ## Numbers

A number that is none is equal to all others. Numbers that are ones have a
place, by their sign, their exponent and their mantissa, and compare as these
do. The two zeros have one place. -/

open Float.Model (UnpackedFloat)

namespace Number

/-- **The place of a number among the others**: by sign, then by exponent and
by mantissa, which for negative numbers run the other way. The two zeros have
one place, as they are equal. What is no number has been given a place too, and
there every statement excludes it. -/
def place : UnpackedFloat → Int × Int × Int
  | .infinity .positive => (2, 0, 0)
  | .infinity .negative => (-2, 0, 0)
  | .finite .positive m e _ => (1, e, m)
  | .finite .negative m e _ => (-1, -e, -m)
  | .zero _ | .notANumber => (0, 0, 0)

/-- Places by their parts, one after the other. -/
def comparePlaces (a b : Int × Int × Int) : Ordering :=
  (compare a.1 b.1).then ((compare a.2.1 b.2.1).then (compare a.2.2 b.2.2))

/-- Places chain, part by part. -/
theorem chained_comparePlaces (a b c : Int × Int × Int) :
    Chained (comparePlaces a b) (comparePlaces b c) (comparePlaces a c) :=
  .then (.of_cmp compare ..) fun _ _ _ =>
    .then (.of_cmp compare ..) fun _ _ _ => .of_cmp compare ..

/-- **Numbers compare as their places do.** So numbers are compared like
triples of integers, and of those it is known that comparing them is an order.
-/
theorem compare_eq_comparePlaces {a b : UnpackedFloat} (ha : a.isNaN = false)
    (hb : b.isNaN = false) :
    a.compare b = some (comparePlaces (place a) (place b)) := by
  have mantissa : ∀ m m' : Nat, compare m m' = compare (m : Int) m' := by
    intro m m'
    simp only [compare, compareOfLessAndEq, Int.ofNat_lt, Int.natCast_inj]
  have opposite : ∀ x y : Int, (compare x y).swap = compare (-x) (-y) := by
    intro x y
    rw [← Std.OrientedOrd.eq_swap]
    simp only [compare, compareOfLessAndEq, Int.neg_lt_neg_iff, Int.neg_inj,
      eq_comm]
  rcases a with s | _ | _ | ⟨_ | _, m, e, _⟩ <;> rcases b with s' | _ | _ |
      ⟨_ | _, m', e', _⟩
  case finite.negative.finite.negative =>
    show some ((compare e e').then (compare m m')).swap = some _
    rw [mantissa, Ordering.swap_then, opposite, opposite]
    rfl
  case finite.positive.finite.positive =>
    show some ((compare e e').then (compare m m')) = some _
    rw [mantissa]
    rfl
  case infinity.infinity => cases s <;> cases s' <;> rfl
  all_goals first
    | rfl | (cases s <;> rfl) | (cases s' <;> rfl) | exact absurd ha (by decide)
    | exact absurd hb (by decide)

/-- What is not a number has no order among numbers. -/
theorem compare_eq_none {a : UnpackedFloat} (ha : a.isNaN = true)
    (b : UnpackedFloat) :
    a.compare b = none := by
  cases a with
  | notANumber => rfl
  | infinity | zero | finite => exact absurd ha Bool.false_ne_true

end Number

namespace Value

/-- **Numbers in their order**, where a missing answer counts as equal. The
comparison of values asks `<` and `>` of floats; here it is traced back to one
comparison with four answers. -/
theorem compareNumbers_eq (x y : Float) :
    compareNumbers x y = (x.toModel.unpack.compare y.toModel.unpack).getD
      .eq := by
  have hlt : ∀ u v : Float, u < v ↔ u.toModel.unpack.compare v.toModel.unpack
      = some .lt := by
    intro u v
    show decide (u.toModel < v.toModel) = true ↔ _
    rw [decide_eq_true_eq]
    show (u.toModel.unpack.compare v.toModel.unpack == some .lt) = true ↔ _
    exact beq_iff_eq
  unfold compareNumbers
  simp only [hlt, compare_eq_swap y.toModel.unpack]
  rcases x.toModel.unpack.compare y.toModel.unpack with _ | _ | _ | _ <;> rfl

/-- Numbers that are ones, by their places. -/
theorem compareNumbers_eq_comparePlaces {x y : Float} (hx : x.isNaN = false)
    (hy : y.isNaN = false) :
    compareNumbers x y =
      Number.comparePlaces (Number.place x.toModel.unpack)
      (Number.place y.toModel.unpack) := by
  rw [compareNumbers_eq, Number.compare_eq_comparePlaces hx hy,
    Option.getD_some]

/-- From the other side the answer is turned around, also if one of them is
none. -/
theorem compareNumbers_swap (x y : Float) :
    compareNumbers y x = (compareNumbers x y).swap := by
  rw [compareNumbers_eq, compareNumbers_eq, compare_eq_swap]
  rcases x.toModel.unpack.compare y.toModel.unpack with _ | _ | _ | _ <;> rfl

/-- What is not a number is equal to every number. -/
theorem compareNumbers_eq_eq {x : Float} (hx : x.isNaN = true) (y : Float) :
    compareNumbers x y = .eq := by
  rw [compareNumbers_eq, Number.compare_eq_none hx, Option.getD_none]

end Value

/-! ## Texts

Texts compare by their lower case first. The lower case of a text need not have
the same length, nor need it differ if the texts do; so texts of the same lower
case are compared as they are. Both are the order by code points, character by
character. -/

namespace Text

/-- The order by code point goes character by character. -/
theorem compareChars_eq_compareLex :
    compareChars = List.compareLex (compareOn Char.toNat) := by
  funext a b
  induction a generalizing b with
  | nil => cases b <;> rfl
  | cons x xs ih =>
    cases b with
    | nil => rfl
    | cons y ys =>
      rw [List.compareLex_cons_cons, ← ih, compareChars]
      show _ = (compare x.toNat y.toNat).then _
      cases compare x.toNat y.toNat <;> rfl

instance : Std.TransCmp compareChars :=
  compareChars_eq_compareLex ▸ inferInstance

/-- Texts go by their lower case, and then by themselves. -/
theorem collate_eq_then (a b : List Char) :
    collate a b = (compareChars (toLower a) (toLower b)).then
      (compareChars a b) := by
  unfold collate
  cases compareChars (toLower a) (toLower b) <;> rfl

/-- **The order of texts is one.** Two texts that differ in case only are told
apart by comparing them as they are, so no two different texts are equal. -/
theorem chained_collate (a b c : List Char) :
    Chained (collate a b) (collate b c) (collate a c) := by
  simp only [collate_eq_then]
  exact .then (.of_cmp compareChars ..) fun _ _ _ => .of_cmp compareChars ..

/-- The order of texts from the other side. -/
theorem collate_swap (a b : List Char) : collate b a = (collate a b).swap := by
  simp only [collate_eq_then, Ordering.swap_then]
  rw [← Std.OrientedCmp.eq_swap, ← Std.OrientedCmp.eq_swap]

end Text

/-! ## Values

The kind of a value is looked at first, and two values of one kind are compared
as values of that kind. Maps are the one kind that cannot be compared, and so
they are excluded at any depth. Which numbers may occur in a value is left open
here (`Over`): the laws will be seen to depend on nothing else. -/

/-- All kinds but that of maps have their own rank. -/
theorem Kind.eq_of_rank {k k' : Kind} (hk : k ≠ .map) (hk' : k' ≠ .map)
    (h : k.rank = k'.rank) :
    k = k' := by
  cases k <;> cases k' <;>
    first | rfl | exact absurd rfl hk | exact absurd rfl hk' |
    exact absurd h (by decide)

namespace Value

/-- **A value over some numbers**: at any depth, it holds no map and only
numbers of these. Arrays are compared element by element, so whether their
comparisons chain depends on the numbers that are in them, however deep. -/
inductive Over (N : Float → Prop) : Value → Prop
  | text (s : String) : Over N (.text s)
  | number {x : Float} : N x → Over N (.number x)
  | truth (b : Bool) : Over N (.truth b)
  | array {items : List Value} : (∀ v ∈ items, v.Over N) → Over N (.array items)

/-- A value that holds no map at any depth. -/
abbrev MapFree : Value → Prop :=
  Over fun _ => True

section

variable {N : Float → Prop} {a b c x y : Value} {xs ys zs : List Value}
    {o p q : Ordering}

theorem Over.mapFree (h : a.Over N) : a.MapFree := by
  induction h with
  | text s => exact .text s
  | number _ => exact .number trivial
  | truth b => exact .truth b
  | array _ ih => exact .array ih

/-- Values of different kinds compare by their kinds. -/
theorem compare_of_kind_ne (ha : a.MapFree) (hb : b.MapFree)
    (h : a.kind ≠ b.kind) :
    a.compare b = .ok (Ord.compare a.kind.rank b.kind.rank) := by
  cases ha <;> cases hb <;> first | rfl | exact absurd rfl h

/-- A value that holds no map is none. -/
theorem Over.kind_ne_map (h : a.Over N) : a.kind ≠ .map := by
  cases h <;> exact nofun

/-- **Values compare by their kinds first.** If the kinds differ the comparison
has the answer of their ranks, and if they do not the ranks say nothing. -/
theorem compare_then_rank (ha : a.MapFree) (hb : b.MapFree)
    (h : a.compare b = .ok o) :
    o = (Ord.compare a.kind.rank b.kind.rank).then o := by
  by_cases hkind : a.kind = b.kind
  · rw [hkind, Std.ReflOrd.compare_self, Ordering.then]
  · obtain rfl := Except.ok.inj ((compare_of_kind_ne ha hb hkind).symm.trans h)
    rw [Ordering.then_self]

/-- Arrays that are not empty compare by their first elements, and then by the
others. -/
theorem compareLists_cons (h : compareLists (x :: xs) (y :: ys) = .ok o) :
    ∃ o₁ o₂, x.compare y = .ok o₁ ∧ (o₁ = .eq → compareLists xs ys = .ok o₂) ∧
      o = o₁.then o₂ := by
  unfold compareLists at h
  split at h
  · next heq => exact ⟨.eq, o, heq, fun _ => h, rfl⟩
  · next o₁ hne heq =>
    obtain rfl := Except.ok.inj h
    exact ⟨o₁, .eq, heq, fun he => absurd (he ▸ rfl) hne, by cases o₁ <;> rfl⟩
  · cases h

/-- If the first elements decide, the others are not looked at. -/
theorem compareLists_cons_of_ne (h : x.compare y = .ok o) (hne : o ≠ .eq) :
    compareLists (x :: xs) (y :: ys) = .ok o := by
  unfold compareLists
  rw [h]
  cases o <;> first | rfl | exact absurd rfl hne

/-- Otherwise they are. -/
theorem compareLists_cons_of_eq (h : x.compare y = .ok .eq) :
    compareLists (x :: xs) (y :: ys) = compareLists xs ys := by
  rw [compareLists, h]

/-! ### Comparing from the other side

Two arrays are compared until an element decides or one of them ends. From the
other side the same elements are compared, in the same order, so the answer is
turned around if it is for elements. -/

/-- If elements can be compared from both sides, arrays can. -/
theorem exists_compareLists (h : ∀ x ∈ xs, ∀ y ∈ ys,
    ∃ o, x.compare y = .ok o ∧ y.compare x = .ok o.swap) :
    ∃ o, compareLists xs ys = .ok o ∧ compareLists ys xs = .ok o.swap := by
  induction xs generalizing ys with
  | nil =>
    cases ys with
    | nil => exact ⟨.eq, rfl, rfl⟩
    | cons y ys => exact ⟨.lt, rfl, rfl⟩
  | cons x xs ih =>
    cases ys with
    | nil => exact ⟨.gt, rfl, rfl⟩
    | cons y ys =>
      obtain ⟨o, hxy, hyx⟩ := h x List.mem_cons_self y List.mem_cons_self
      by_cases ho : o = .eq
      · subst ho
        rw [compareLists_cons_of_eq hxy, compareLists_cons_of_eq hyx]
        exact ih fun x hx y hy => h x (List.mem_cons_of_mem _ hx) y
          (List.mem_cons_of_mem _ hy)
      · refine ⟨o, compareLists_cons_of_ne hxy ho,
          compareLists_cons_of_ne hyx ?_⟩
        rwa [Ne, Ordering.swap_eq_eq]

/-- **Values without maps can be compared**, and from the other side the answer
is turned around. Only maps cannot be compared, and an array is compared as far
as it has to be, so that one in the depths of it might be found or might not.
Without any there is no such question. -/
theorem exists_compare (ha : a.MapFree) (hb : b.MapFree) :
    ∃ o, a.compare b = .ok o ∧ b.compare a = .ok o.swap := by
  induction ha generalizing b with
  | text s =>
    cases hb with
    | text t => exact ⟨_, rfl, congrArg Except.ok (Text.collate_swap _ _)⟩
    | number _ | truth _ | array _ => exact ⟨_, rfl, rfl⟩
  | number _ =>
    cases hb with
    | number _ => exact ⟨_, rfl, congrArg Except.ok (compareNumbers_swap _ _)⟩
    | text _ | truth _ | array _ => exact ⟨_, rfl, rfl⟩
  | truth b =>
    cases hb with
    | truth b' => exact ⟨_, rfl, by cases b <;> cases b' <;> rfl⟩
    | text _ | number _ | array _ => exact ⟨_, rfl, rfl⟩
  | array _ ih =>
    cases hb with
    | array hys => exact exists_compareLists fun x hx y hy => ih x hx (hys y hy)
    | text _ | number _ | truth _ => exact ⟨_, rfl, rfl⟩

/-- A value is equal to itself. -/
theorem compare_self (ha : a.MapFree) : a.compare a = .ok .eq := by
  obtain ⟨o, ho, hswap⟩ := exists_compare ha ha
  have : o = o.swap := Except.ok.inj (ho.symm.trans hswap)
  cases o <;> first | exact ho | cases this

/-! ### Comparisons of three

Values of different kinds chain because kinds have ranks, and the ranks are all
different. What is left are three values of one kind: truth values, numbers,
texts, or arrays by induction on their elements. -/

/-- Truth values chain. -/
theorem chained_compareTruths (s t u : Bool) :
    Chained (compareTruths s t) (compareTruths t u) (compareTruths s u) :=
  ⟨by revert s t u; decide⟩

/-- **Three values whose comparisons chain.** If one of the three comparisons
fails nothing is claimed. -/
def Chains (a b c : Value) : Prop :=
  ∀ o p q, a.compare b = .ok o → b.compare c = .ok p → a.compare c = .ok q →
    Chained o p q

theorem Chains.of_ok (h : Chained o p q) (hab : a.compare b = .ok o)
    (hbc : b.compare c = .ok p) (hac : a.compare c = .ok q) : Chains a b c := by
  intro o' p' q' hab' hbc' hac'
  obtain rfl := Except.ok.inj (hab.symm.trans hab')
  obtain rfl := Except.ok.inj (hbc.symm.trans hbc')
  obtain rfl := Except.ok.inj (hac.symm.trans hac')
  exact h

/-- Only values of one kind are left to be looked at. -/
theorem Chains.of_kinds (ha : a.MapFree) (hb : b.MapFree) (hc : c.MapFree)
    (h : a.kind = b.kind → b.kind = c.kind → Chains a b c) : Chains a b c := by
  intro o p q hab hbc hac
  rw [compare_then_rank ha hb hab, compare_then_rank hb hc hbc,
    compare_then_rank ha hc hac]
  refine (Chained.of_cmp Ord.compare ..).then fun hkab hkbc _ => ?_
  exact h
    (Kind.eq_of_rank ha.kind_ne_map hb.kind_ne_map (Nat.compare_eq_eq.1 hkab))
    (Kind.eq_of_rank hb.kind_ne_map hc.kind_ne_map (Nat.compare_eq_eq.1 hkbc)) o
    p q hab hbc hac

/-- **Comparisons of arrays chain** if those of their elements do. Arrays are
gone through in parallel, and the first elements that differ decide. -/
theorem Chains.array (h : ∀ x ∈ xs, ∀ y ∈ ys, ∀ z ∈ zs, Chains x y z) :
    Chains (.array xs) (.array ys) (.array zs) := by
  -- the shortest of the arrays ends the comparison, so the induction is on all
  -- three
  induction xs generalizing ys zs with
  | nil =>
    intro o p q hab hbc hac
    cases ys with
    | nil =>
      obtain rfl := Except.ok.inj hab
      obtain rfl := Except.ok.inj (hbc.symm.trans hac)
      exact ⟨fun _ _ => rfl⟩
    | cons y ys =>
      obtain rfl := Except.ok.inj hab
      cases zs with
      | nil =>
        obtain rfl := Except.ok.inj hbc
        exact ⟨fun _ hgt => absurd rfl hgt⟩
      | cons z zs =>
        obtain rfl := Except.ok.inj hac
        exact ⟨fun _ _ => rfl⟩
  | cons x xs ih =>
    intro o p q hab hbc hac
    cases ys with
    | nil =>
      obtain rfl := Except.ok.inj hab
      exact ⟨fun hgt => absurd rfl hgt⟩
    | cons y ys =>
      cases zs with
      | nil =>
        obtain rfl := Except.ok.inj hbc
        exact ⟨fun _ hgt => absurd rfl hgt⟩
      | cons z zs =>
        obtain ⟨o₁, o₂, hab₁, hab₂, rfl⟩ := compareLists_cons hab
        obtain ⟨p₁, p₂, hbc₁, hbc₂, rfl⟩ := compareLists_cons hbc
        obtain ⟨q₁, q₂, hac₁, hac₂, rfl⟩ := compareLists_cons hac
        have hfirst :=
          h x List.mem_cons_self y List.mem_cons_self z List.mem_cons_self
        refine (hfirst o₁ p₁ q₁ hab₁ hbc₁ hac₁).then fun ho hp hq => ?_
        refine ih (fun x hx y hy z hz => ?_) o₂ p₂ q₂ (hab₂ ho) (hbc₂ hp)
          (hac₂ hq)
        exact h x (List.mem_cons_of_mem _ hx) y (List.mem_cons_of_mem _ hy) z
          (List.mem_cons_of_mem _ hz)

/-- **Comparisons of values chain** if those of the numbers in them do. By
induction on the first value. Values of different kinds chain by their ranks,
whatever they are made of. -/
theorem Chains.of_over (hN : ∀ x y z, N x → N y → N z →
      Chained (compareNumbers x y) (compareNumbers y z) (compareNumbers x z))
    (ha : a.Over N) (hb : b.Over N) (hc : c.Over N) : Chains a b c := by
  induction ha generalizing b c with
  | text s =>
    refine .of_kinds (.text s) hb.mapFree hc.mapFree fun hkb hkc => ?_
    cases hb <;> cases hkb
    cases hc <;> cases hkc
    exact .of_ok (Text.chained_collate ..) rfl rfl rfl
  | number hx =>
    refine .of_kinds (.number trivial) hb.mapFree hc.mapFree fun hkb hkc => ?_
    cases hb <;> cases hkb
    cases hc <;> cases hkc
    exact .of_ok (hN _ _ _ hx ‹_› ‹_›) rfl rfl rfl
  | truth t =>
    refine .of_kinds (.truth t) hb.mapFree hc.mapFree fun hkb hkc => ?_
    cases hb <;> cases hkb
    cases hc <;> cases hkc
    exact .of_ok (chained_compareTruths ..) rfl rfl rfl
  | array hxs ih =>
    refine .of_kinds (Over.array hxs).mapFree hb.mapFree hc.mapFree
      fun hkb hkc => ?_
    cases hb <;> cases hkb
    cases hc <;> cases hkc
    next _ hys _ hzs =>
    exact .array fun x hx y hy z hz => ih x hx (hys y hy) (hzs z hz)

/-! ### The laws of an order

All laws but one hold of all values without maps. Transitivity holds as far as
numbers chain, and these chain unless one that is none stands between two that
differ. Such three numbers are a counterexample themselves, so the condition is
necessary as well. -/

/-- Numbers that are ones chain. -/
theorem chained_compareNumbers {x y z : Float} (hx : x.isNaN = false)
    (hy : y.isNaN = false) (hz : z.isNaN = false) :
    Chained (compareNumbers x y) (compareNumbers y z) (compareNumbers x z) := by
  rw [compareNumbers_eq_comparePlaces hx hy,
    compareNumbers_eq_comparePlaces hy hz,
    compareNumbers_eq_comparePlaces hx hz]
  exact Number.chained_comparePlaces ..

/-- **What an order promises of three values.** These are the laws of a total
order, for three values, together with the law that says what comparing in the
other direction gives. -/
structure OrderLaws (a b c : Value) : Prop where
  /-- They can be compared. -/
  total : ∃ o, a.compare b = .ok o
  refl : a.compare a = .ok .eq
  swap : ∀ o, a.compare b = .ok o → b.compare a = .ok o.swap
  /-- What is not greater twice is not greater. -/
  trans : ∀ o p q, a.compare b = .ok o → b.compare c = .ok p →
    a.compare c = .ok q →
    o ≠ .gt → p ≠ .gt → q ≠ .gt

/-- **Where the order of values is one.** Values without maps can all be
compared, are equal to themselves, and compare the other way from the other
side. All values over some numbers obey the laws of an order exactly if there
is no number that is none among these, beside two that differ. -/
theorem orderLaws_iff (N : Float → Prop) :
    (∀ a b : Value, a.MapFree → b.MapFree → a.compare a = .ok .eq ∧
      ∃ o, a.compare b = .ok o ∧ b.compare a = .ok o.swap) ∧
    ((∀ a b c : Value, a.Over N → b.Over N → c.Over N → OrderLaws a b c) ↔
      ∀ x y z : Float, N x → N y → N z → x.isNaN = true → ¬ y < z) := by
  refine ⟨fun a b ha hb => ⟨compare_self ha, exists_compare ha hb⟩, ?_, ?_⟩
  · intro hlaws x y z hx hy hz hnan hlt
    -- the greater one is not above what is no number, and that is not above
    -- the smaller one
    have hyz : compareNumbers y z = .lt := if_pos hlt
    have hzy : compareNumbers z y = .gt := by rw [compareNumbers_swap, hyz]; rfl
    have hxy : compareNumbers x y = .eq := compareNumbers_eq_eq hnan y
    have hzx : compareNumbers z x = .eq := by
      rw [compareNumbers_swap, compareNumbers_eq_eq hnan]; rfl
    exact (hlaws (.number z) (.number x) (.number y) (.number hz) (.number hx)
      (.number hy)).trans .eq .eq .gt (congrArg Except.ok hzx)
      (congrArg Except.ok hxy) (congrArg Except.ok hzy) nofun nofun rfl
  · intro hN a b c ha hb hc
    have hnumbers : ∀ x y z, N x → N y → N z →
        Chained (compareNumbers x y) (compareNumbers y z)
        (compareNumbers x z) := by
      by_cases hnone : ∃ x, N x ∧ x.isNaN = true
      · obtain ⟨x, hx, hnan⟩ := hnone
        have hequal : ∀ y z, N y → N z → compareNumbers y z = .eq := by
          intro y z hy hz
          rw [compareNumbers, if_neg (hN x y z hx hy hz hnan),
            if_neg (hN x z y hx hz hy hnan)]
        intro y z w hy hz hw
        rw [hequal y z hy hz, hequal z w hz hw, hequal y w hy hw]
        exact .of_eq
      · have hone : ∀ x, N x → x.isNaN = false := fun x hx =>
          Bool.eq_false_iff.2 fun hnan => hnone ⟨x, hx, hnan⟩
        exact fun x y z hx hy hz => chained_compareNumbers (hone x hx)
          (hone y hy) (hone z hz)
    obtain ⟨o, hab, hba⟩ := exists_compare ha.mapFree hb.mapFree
    refine ⟨⟨o, hab⟩, compare_self ha.mapFree, fun o' hab' => ?_,
      fun o p q hab hbc hac => ?_⟩
    · obtain rfl := Except.ok.inj (hab.symm.trans hab')
      exact hba
    · exact (Chains.of_over hnumbers ha hb hc o p q hab hbc hac).ne_gt

/-- A number that is none between two that differ: the first is not greater
than it, nor it than the last, and yet the first is greater than the last. -/
theorem two_nan_one_not_orderLaws :
    ¬ ∀ a b c : Value, a.MapFree → b.MapFree → c.MapFree → OrderLaws a b c := by
  intro hlaws
  have htrans :=
    (hlaws (.number 2) (.number (0 / 0)) (.number 1) (.number trivial)
      (.number trivial) (.number trivial)).trans
  exact htrans .eq .eq .gt
    (congrArg Except.ok (show compareNumbers 2 (0 / 0) = .eq by decide))
    (congrArg Except.ok (show compareNumbers (0 / 0) 1 = .eq by decide))
    (congrArg Except.ok (show compareNumbers 2 1 = .gt by decide))
    nofun nofun rfl

end

end Value

end StreamScript
