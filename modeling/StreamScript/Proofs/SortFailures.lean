import StreamScript.Run.Fold
import StreamScript.Proofs.Failures

/-!
# What sorting remembers

Sorting goes on behind a comparison that failed, and remembers the first
failure of all. Whichever comparisons it makes, that failure comes of one of
them: so the failures of all comparisons have a property, what is remembered
has it (`Remembers`). Each way of sorting is made of comparisons put one after
the other, and keeps this for no other reason.

The other question about a failure, whether there is one at all, is not asked
here. It has an answer only where comparisons do not fail, and there nothing is
remembered.
-/

namespace StreamScript.Sort

variable {ε α β : Type} {P : ε → Prop} {less : α → α → Except ε Bool}

/-- **Sorting that remembers only failures with a property**, if there was no
other to remember. What has failed before is a parameter and not fixed to
nothing: in a sequence of comparisons every one but the first finds what those
before it have left. -/
def Remembers (P : ε → Prop) (x : Sorting ε β) : Prop :=
  ∀ failure, (∀ e, failure = some e → P e) → ∀ e,
    (x.run failure).2 = some e → P e

namespace Remembers

/-- What makes no comparison remembers what it has found. -/
theorem pure (b : β) : Remembers P (Pure.pure b) :=
  fun _ h => h

/-- Errors are remembered in the order in which they are met, so behind the
first nothing is remembered in its place. -/
theorem bind {γ : Type} {x : Sorting ε β} {f : β → Sorting ε γ}
    (hx : Remembers P x) (hf : ∀ b, Remembers P (f b)) :
    Remembers P (x >>= f) :=
  fun failure h => hf _ _ (hx failure h)

/-- The one place where a failure is remembered. The first failure stays: a
comparison that fails later changes nothing, and one that fails first puts its
error there, which has the property by assumption. -/
theorem isBefore (h : ∀ x y, FailsOnly P (less x y)) (x y : α) :
    Remembers P (isBefore less x y) := by
  intro failure hfailure e he
  cases hless : less x y with
  | ok b =>
    have hrun : (Sort.isBefore less x y).run failure = (b, failure) := by
      simp only [Sort.isBefore, StateT.run, hless]
    rw [hrun] at he
    exact hfailure e he
  | error e' =>
    have hrun : (Sort.isBefore less x y).run failure
        = (false, failure.or (some e')) := by
      simp only [Sort.isBefore, StateT.run, hless]
    rw [hrun] at he
    cases failure with
    | some e₀ => exact hfailure e he
    | none =>
      obtain rfl := Option.some.inj he
      exact h x y e' hless

end Remembers

section Ways

variable (h : ∀ x y, FailsOnly P (less x y))
include h

/-! ## The ways of sorting

There is one lemma for every way of sorting, and all are proved alike. A way of
sorting that is a sequence of steps keeps what its steps keep. One that goes
through a list does so by induction on the list, or on whatever its recursion
is on. Where the next step depends on how a comparison came out, both cases are
gone through, and neither says more than the other.

Sorting by runs sorts some of its runs by another way that it is given, so it
keeps what that way keeps. -/

/-- To place an element is to compare it with others. -/
theorem remembers_place (x : α) (ys : List α) :
    Remembers P (place less x ys) := by
  induction ys with
  | nil => exact .pure _
  | cons y ys ih =>
    refine (Remembers.isBefore h x y).bind fun b => ?_
    split
    · exact ih.bind fun _ => .pure _
    · exact .pure _

/-- Elements are placed one after the other. -/
theorem remembers_placeAll (sorted xs : List α) :
    Remembers P (placeAll less sorted xs) := by
  induction xs generalizing sorted with
  | nil => exact .pure _
  | cons x xs ih => exact (remembers_place h x sorted).bind ih

theorem remembers_insertionSort (xs : List α) :
    Remembers P (insertionSort less xs) :=
  (remembers_placeAll h [] xs).bind fun _ => .pure _

theorem remembers_mergeFront (xs ys : List α) :
    Remembers P (mergeFront less xs ys) := by
  fun_induction mergeFront less xs ys with
  | case1 | case2 => exact .pure _
  | case3 x xs y ys ih₁ ih₂ =>
    refine (Remembers.isBefore h y x).bind fun b => ?_
    split
    · exact ih₁.bind fun _ => .pure _
    · exact ih₂.bind fun _ => .pure _

theorem remembers_mergeBack (xs ys : List α) :
    Remembers P (mergeBack less xs ys) := by
  fun_induction mergeBack less xs ys with
  | case1 | case2 => exact .pure _
  | case3 x xs y ys ih₁ ih₂ =>
    refine (Remembers.isBefore h y x).bind fun b => ?_
    split
    · exact ih₁.bind fun _ => .pure _
    · exact ih₂.bind fun _ => .pure _

/-- A merge goes from the front or from the back. -/
theorem remembers_merge (xs ys : List α) : Remembers P (merge less xs ys) := by
  unfold merge
  split
  · exact remembers_mergeFront h xs ys
  · exact (remembers_mergeBack h _ _).bind fun _ => .pure _

/-- One element is taken from one end. Only if both lists have one are they
compared. -/
theorem remembers_takeOne (back : Bool) (xs ys : List α) :
    Remembers P (takeOne less back xs ys) := by
  unfold takeOne
  split
  · exact (Remembers.isBefore h _ _).bind fun _ => .pure _
  all_goals exact .pure _

theorem remembers_mergeEnds (xs ys xsBack ysBack front back : List α)
    (n : Nat) :
    Remembers P (mergeEnds less xs ys xsBack ysBack front back n) := by
  induction n generalizing xs ys xsBack ysBack front back with
  | zero => exact .pure _
  | succ n ih =>
    exact (remembers_takeOne h false xs ys).bind fun _ =>
      (remembers_takeOne h true xsBack ysBack).bind fun _ => ih _ _ _ _ _ _

/-- The ends of two halves are compared from both sides, in turn. -/
theorem remembers_mergeHalves (xs ys : List α) :
    Remembers P (mergeHalves less xs ys) :=
  (remembers_mergeEnds h xs ys xs.reverse ys.reverse [] [] _).bind
    fun _ => .pure _

theorem remembers_sortFour (p q r s : α) :
    Remembers P (sortFour less p q r s) :=
  (Remembers.isBefore h q p).bind fun _ => (Remembers.isBefore h s r).bind
    fun _ =>
    (Remembers.isBefore h _ _).bind fun _ => (Remembers.isBefore h _ _).bind
    fun _ =>
      (Remembers.isBefore h _ _).bind fun _ => .pure _

theorem remembers_startHalf (whole : Nat) (xs : List α) :
    Remembers P (startHalf less whole xs) := by
  unfold startHalf
  split
  · split
    · exact .pure _
    · exact (remembers_sortFour h _ _ _ _).bind fun _ => .pure _
  · exact .pure _

/-- Two halves are begun, filled up and merged. -/
theorem remembers_shortSort (xs : List α) : Remembers P (shortSort less xs) :=
  (remembers_startHalf h xs.length _).bind fun _ =>
    (remembers_startHalf h xs.length _).bind fun _ =>
      (remembers_placeAll h _ _).bind fun _ =>
      (remembers_placeAll h _ _).bind fun _ => remembers_mergeHalves h _ _

/-- A run is followed as long as its neighbours compare in the same way. -/
theorem remembers_runBehind (descending : Bool) (x : α) (ys : List α) :
    Remembers P (runBehind less descending x ys) := by
  induction ys generalizing x with
  | nil => exact .pure _
  | cons y ys ih =>
    refine (Remembers.isBefore h y x).bind fun b => ?_
    split
    · exact (ih y).bind fun _ => .pure _
    · exact .pure _

theorem remembers_runLength (xs : List α) :
    Remembers P (runLength less xs) := by
  unfold runLength
  split
  · exact (Remembers.isBefore h _ _).bind fun _ =>
      (remembers_runBehind h _ _ _).bind fun _ =>
      .pure _
  · exact .pure _

/-- A run is looked for if the list is long enough for one to be of use; a run
that is too short is sorted or left alone. -/
theorem remembers_takeRun (eager : Bool) (long : Nat) (xs : List α) :
    Remembers P (takeRun less eager long xs) := by
  have hlength : ∀ {β} {f : Nat × Bool → Sorting ε β},
      (∀ found, Remembers P (f found)) →
      Remembers P (if long ≤ xs.length then runLength less xs >>= f
        else Pure.pure (0, false) >>= f) := by
    intro β f hf
    split
    · exact (remembers_runLength h xs).bind hf
    · exact (Remembers.pure (0, false)).bind hf
  refine hlength fun found => ?_
  dsimp only
  split
  · exact .pure _
  · split
    · exact (remembers_shortSort h _).bind fun _ => .pure _
    · exact .pure _

variable {sort : List α → Sorting ε (List α)}

/-- Runs that are not sorted yet are sorted when they are merged, so it is
asked of the sorting of their parts. -/
theorem remembers_mergeRuns (hsort : ∀ xs, Remembers P (sort xs))
    (left right : Run α) :
    Remembers P (mergeRuns less sort left right) := by
  have hrun : ∀ {β} {f : List α → Sorting ε β} (run : Run α),
      (∀ xs, Remembers P (f xs)) →
      Remembers P (if run.sorted then Pure.pure run.items >>= f
        else sort run.items >>= f) := by
    intro β f run hf
    split
    · exact (Remembers.pure run.items).bind hf
    · exact (hsort run.items).bind hf
  unfold mergeRuns
  split
  · refine hrun left fun xs => hrun right fun ys => ?_
    exact (remembers_merge h xs ys).bind fun _ => .pure _
  · exact .pure _

/-- Runs that lie below are merged as long as they lie deep enough. -/
theorem remembers_mergeBelow (hsort : ∀ xs, Remembers P (sort xs)) (depth : Nat)
    (before : List (Run α × Nat)) (run : Run α) :
    Remembers P (mergeBelow less sort depth before run) := by
  induction before generalizing run with
  | nil => exact .pure _
  | cons entry before ih =>
    unfold mergeBelow
    split
    · exact (remembers_mergeRuns h hsort _ _).bind ih
    · exact .pure _

/-- By induction on what is left of the list. Every step finds a run and merges
what lies below it, and goes on only if the run has taken something. -/
theorem remembers_mergeOn (hsort : ∀ xs, Remembers P (sort xs)) (eager : Bool)
    (n : Nat) (before : List (Run α × Nat)) (last : Run α) (stop : Nat)
    (xs : List α) :
    Remembers P (mergeOn less eager sort n before last stop xs) := by
  induction hk : xs.length
    using Nat.strongRecOn generalizing before last stop xs with
  | _ k ih =>
    unfold mergeOn
    split
    · exact (remembers_mergeBelow h hsort 0 before last).bind fun _ => .pure _
    · refine (remembers_takeRun h eager _ xs).bind fun taken => ?_
      obtain ⟨run, rest⟩ := taken
      refine (remembers_mergeBelow h hsort _ before last).bind fun merged => ?_
      dsimp only
      split
      · next hlt => exact ih _ (hk ▸ hlt) _ _ _ _ rfl
      · exact .pure _

/-- What is left at the end is one run, and if nobody has sorted it yet the
other way of sorting does. -/
theorem remembers_runSort (hsort : ∀ xs, Remembers P (sort xs)) (eager : Bool)
    (xs : List α) :
    Remembers P (runSort less eager sort xs) := by
  refine (remembers_takeRun h eager _ xs).bind fun taken => ?_
  refine (remembers_mergeOn h hsort eager _ [] _ _ _).bind fun whole => ?_
  split
  · exact .pure _
  · exact hsort _

/-- Elements are looked up by their place; where there is none there is nothing
to compare. -/
theorem remembers_isBeforeAt (xs : Array α) (i j : Nat) :
    Remembers P (isBeforeAt less xs i j) := by
  unfold isBeforeAt
  split
  · exact Remembers.isBefore h _ _
  · exact .pure _

/-- A pivot is found by comparing elements at given places. Where there is no
element nothing is compared. -/
theorem remembers_medianAt (xs : Array α) (i j k : Nat) :
    Remembers P (medianAt less xs i j k) := by
  refine (remembers_isBeforeAt h xs i j).bind fun _ =>
    (remembers_isBeforeAt h xs i k).bind fun _ => ?_
  split
  · exact (remembers_isBeforeAt h xs j k).bind fun _ => .pure _
  · exact .pure _

/-- The pivot of a long list is the median of medians, found by the same method
in each of three parts. -/
theorem remembers_middleOf (xs : Array α) (i j k n : Nat) :
    Remembers P (middleOf less xs i j k n) := by
  induction n using Nat.strongRecOn generalizing i j k with
  | _ n ih =>
    unfold middleOf
    split
    · next hn =>
      have hlt : n / 8 < n :=
        Nat.div_lt_self (Nat.lt_of_lt_of_le (by decide) hn) (by decide)
      exact (ih _ hlt _ _ _).bind fun i => (ih _ hlt _ _ _).bind fun j =>
        (ih _ hlt _ _ _).bind fun k => remembers_medianAt h xs i j k
    · exact remembers_medianAt h xs i j k

omit h in
/-- Elements are split by asking about each of them once. -/
theorem remembers_splitBy {test : α → Sorting ε Bool}
    (htest : ∀ x, Remembers P (test x)) (xs : List α) :
    Remembers P (splitBy test xs) := by
  induction xs with
  | nil => exact .pure _
  | cons x xs ih => exact (htest x).bind fun _ => ih.bind fun _ => .pure _

omit h in
theorem remembers_splitAround {test : α → Sorting ε Bool}
    (htest : ∀ x, Remembers P (test x)) (pivotLeft : Bool) (before : List α)
    (pivot : α) (after : List α) :
    Remembers P (splitAround test pivotLeft before pivot after) :=
  (remembers_splitBy htest before).bind fun _ =>
    (remembers_splitBy htest after).bind fun _ =>
    .pure _

/-- Sorting by partition goes on with two parts, each with one partition less,
until the limit is used up and runs take over. The induction is on the limit.
In which parts a list is split, and whether the equal elements are set apart,
is of no matter; so the cases end in the same way. -/
theorem remembers_partitionSort (limit : Nat) (ancestor : Option α)
    (xs : List α) :
    Remembers P (partitionSort less limit ancestor xs) := by
  induction limit generalizing ancestor xs with
  | zero =>
    unfold partitionSort
    split
    · exact remembers_shortSort h xs
    · exact remembers_runSort h (fun _ => .pure _) true xs
  | succ limit ih =>
    unfold partitionSort
    split
    · exact remembers_shortSort h xs
    · refine (remembers_middleOf h _ _ _ _ _).bind fun p => ?_
      split
      · exact .pure _
      · next pivot after _ =>
        have hsplit : ∀ {β} {f : List α × List α → Sorting ε β} (least : Bool),
            (∀ parts, Remembers P (f parts)) → Remembers P (if least = true then
              splitAround (isBefore less · pivot) false (xs.take p) pivot
                after >>= f
              else Pure.pure ([], xs) >>= f) := by
          intro β f least hf
          split
          · exact (remembers_splitAround (fun x => .isBefore h x pivot)
              _ _ _ _).bind hf
          · exact (Remembers.pure ([], xs)).bind hf
        have hends : ∀ left right : List α, Remembers P (if left.isEmpty then do
              let halves ← splitAround (fun x => do
                let behind ← isBefore less pivot x
                return !behind) true (xs.take p) pivot after
              let right ← partitionSort less limit none halves.2
              return halves.1 ++ right
            else do
              let right ← partitionSort less limit (some pivot) right
              let left ← partitionSort less limit ancestor left
              return left ++ right) := by
          intro left right
          split
          · exact (remembers_splitAround
              (fun x => (Remembers.isBefore h pivot x).bind fun _ => .pure _)
                _ _ _ _).bind fun _ => (ih _ _).bind fun _ => .pure _
          · exact (ih _ _).bind fun _ => (ih _ _).bind fun _ => .pure _
        split
        · exact (Remembers.isBefore h _ pivot).bind fun least =>
            hsplit least fun _ => hends _ _
        · exact (Remembers.pure true).bind fun least => hsplit least fun _ =>
            hends _ _

/-- **What is remembered of sorting a list** comes of a comparison. -/
theorem remembers_sort (xs : List α) : Remembers P (Sort.sort less xs) :=
  remembers_runSort h (fun _ => remembers_partitionSort h _ none _) _ xs

end Ways

end StreamScript.Sort

namespace StreamScript

/-! ## Folding

Of all ways to fold, only sorting remembers a failure rather than end with it.
The others fail at the first element that they cannot take in, with an error
that the element makes. -/

/-- **What sorting results fails with.** Results that have an order are sorted
without a failure. Otherwise the failure is the one that is remembered, and
that is one of a comparison of two results. -/
theorem Yield.ordinary_sort (yields : List Yield) :
    Ordinary (Yield.sort yields) := by
  have hbefore : ∀ x y : Yield, Ordinary (x.isBefore y) := fun x y =>
    (x.result.ordinary_compare y.result).map _
  have hremembers : Sort.Remembers (fun e : RunError => e.isOrdinary = true)
      (if yields.length ≤ few then Sort.insertionSort isBefore yields
        else Sort.sort isBefore yields) := by
    split
    · exact Sort.remembers_insertionSort hbefore yields
    · exact Sort.remembers_sort hbefore yields
  unfold Yield.sort Yield.sortBySteps
  split
  · exact .ok _
  · dsimp only
    split
    · next e hrun =>
      exact .error (hremembers none (fun _ h => by cases h) e (by rw [hrun]))
    · exact .ok _

/-- **What folding fails with.** -/
theorem ScopeKind.ordinary_fold (kind : ScopeKind) (yields : List Yield) :
    Ordinary (kind.fold yields) := by
  cases kind with
  | map | «do» => exact .ok _
  | filter =>
    exact ((FailsOnly.mapM yields fun y => (Value.ordinary_asTruth y.result).map
      _).map _).map _
  | sortBy => exact (Yield.ordinary_sort yields).map _
  | sumBy =>
    exact FailsOnly.foldlM (fun sum y => sum.ordinary_add y.result) yields _
  | pivot =>
    exact (FailsOnly.foldlM
      (fun groups y => (Value.ordinary_toKey y.result).map _) yields _).map _

end StreamScript
