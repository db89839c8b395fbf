import Mathlib.Data.List.Infix
import StreamScript.Proofs.Closure

/-!
# Positions counted from either end

An index points to an element of an array or to a character of a text, and a
negative one is counted from the end. `at` and the member operator refuse an
index that points to nothing; `slice` moves it to the nearer end instead.
Arrays and texts behave alike, and what can be said of both is said once, of a
value that is made of elements (`Indexed`).

An index is a number cast to 64 bits, and any of these may come up, the least
and the greatest included. The place it points to is found by one addition.
`wrappedPosition` and `wrappedClamp` do this in 64-bit arithmetic, where an
overflow would wrap around, and give the same places (`toInt_wrappedPosition`,
`toInt_wrappedClamp`): as long as the length of a list is a 64-bit integer
itself, nothing overflows.
-/

namespace StreamScript

/-! ## Places in 64 bits

An index is at first a 64-bit integer, and so is the length of a list. The
place it points to is found by adding the two if the index is negative. The sum
of a negative number and one that is not lies between them, so it does not
overflow, however small the index is; and what is compared afterwards are
numbers in range. -/

/-- The place that an index points to (`Value.position`), found by 64-bit
arithmetic that wraps around. -/
def wrappedPosition (i : Int64) (length : Nat) : Int64 :=
  if i < 0 then Int64.ofNat length + i else i

/-- The place of an index moved into a list (`Builtin.clampPosition`), found in
the same way. -/
def wrappedClamp (i : Int64) (length : Nat) : Int64 :=
  let p := wrappedPosition i length
  if p < 0 then 0 else if Int64.ofNat length < p then Int64.ofNat length else p

section Wrapped

variable {length : Nat} (h : length ≤ Number.greatestInt64) (i : Int64)

include h

/-- A length that is in range is the integer that it is taken for. -/
theorem toInt_ofNat_length : (Int64.ofNat length).toInt = length := by
  simp only [Number.greatestInt64] at h
  exact Int64.toInt_ofNat_of_lt (by omega)

/-- **Counting from the end does not overflow.** A length is never negative and
at most the largest integer there is, and to it something negative is added, or
nothing. -/
theorem toInt_wrappedPosition :
    (wrappedPosition i length).toInt = Value.position i.toInt length := by
  have hlow := i.le_toInt
  have hhigh := i.toInt_lt
  have hlength := toInt_ofNat_length h
  unfold wrappedPosition Value.position
  by_cases hneg : i < 0
  · have hneg' : i.toInt < 0 := Int64.lt_iff_toInt_lt.1 hneg
    simp only [Number.greatestInt64] at h
    rw [if_pos hneg, if_pos hneg', Int64.toInt_add, hlength]
    exact Int.bmod_eq_of_le (by omega) (by omega)
  · have hneg' : ¬ i.toInt < 0 := fun hlt => hneg (Int64.lt_iff_toInt_lt.2 hlt)
    rw [if_neg hneg, if_neg hneg']

/-- **Moving a place into a list does not overflow.** The place is moved to the
length if it is behind it, and to 0 if it is in front of everything. -/
theorem toInt_wrappedClamp :
    (wrappedClamp i length).toInt = Builtin.clampPosition i.toInt length := by
  have hposition := toInt_wrappedPosition h i
  have hlength := toInt_ofNat_length h
  have hzero : (0 : Int64).toInt = 0 := rfl
  unfold wrappedClamp Builtin.clampPosition
  generalize wrappedPosition i length = p at hposition
  by_cases hneg : p < 0
  · have hneg' := Int64.lt_iff_toInt_lt.1 hneg
    rw [if_pos hneg]
    omega
  · have hneg' := mt Int64.lt_iff_toInt_lt.2 hneg
    rw [if_neg hneg]
    by_cases hlarge : Int64.ofNat length < p
    · have hlarge' := Int64.lt_iff_toInt_lt.1 hlarge
      rw [if_pos hlarge]
      omega
    · have hlarge' := mt Int64.lt_iff_toInt_lt.2 hlarge
      rw [if_neg hlarge]
      omega

end Wrapped

/-- A cast number is a 64-bit integer. -/
theorem exists_toInt_eq_toInt64 (x : Float) :
    ∃ i : Int64, i.toInt = Number.toInt64 x := by
  obtain ⟨hlow, hhigh⟩ := Number.toInt64_mem x
  simp only [Number.leastInt64, Number.greatestInt64] at hlow hhigh
  exact ⟨Int64.ofInt (Number.toInt64 x),
    Int64.toInt_ofInt_of_le (by omega) (by omega)⟩

/-! ## Elements and stretches of a list

Without the bounds of a machine the same is said with integers. An index points
into a list or does not; a place between elements is always there, since one
outside means the nearer end. -/

section Lists

variable {α : Type} (items : List α) (i : Int)

/-- Whether an index points to one of `n` elements. -/
def PointsInto (i : Int) (n : Nat) : Prop :=
  -(n : Int) ≤ i ∧ i < n

instance (i : Int) (n : Nat) : Decidable (PointsInto i n) :=
  inferInstanceAs (Decidable (_ ∧ _))

/-- **The place between elements** that an index means, out of `n` elements: it
counts from the end if it is negative, and what is outside means the nearer
end. -/
def placeBetween (i : Int) (n : Nat) : Int :=
  if i < -(n : Int) then 0 else if i < 0 then n + i else if i ≤ n then i else n

/-- The place that is found is the one that is meant. -/
theorem clampPosition_eq (n : Nat) :
    (Builtin.clampPosition i n : Int) = placeBetween i n := by
  unfold Builtin.clampPosition Value.position placeBetween
  omega

/-- **An index finds an element** exactly if it points to one. The two cases
exclude each other by their first parts, so that either of them can be
concluded from the other not being so. -/
theorem elementAt?_cases :
    (PointsInto i items.length ∧ ∃ v,
        items[(if i < 0 then items.length + i else i).toNat]? = some v ∧
          Value.elementAt? items i = some v) ∨
      (¬ PointsInto i items.length ∧ Value.elementAt? items i = none) := by
  unfold Value.elementAt? Value.position PointsInto
  dsimp only
  by_cases hin : -(items.length : Int) ≤ i ∧ i < items.length
  · have hplace : (if i < 0 then (items.length : Int) + i else i).toNat
        < items.length := by
      split <;> omega
    refine .inl ⟨hin, items.get ⟨_, hplace⟩,
      List.getElem?_eq_getElem hplace, ?_⟩
    rw [if_pos (by split <;> omega)]
    exact List.getElem?_eq_getElem hplace
  · refine .inr ⟨hin, ?_⟩
    by_cases hplace : 0 ≤ (if i < 0 then (items.length : Int) + i else i)
    · rw [if_pos hplace, List.getElem?_eq_none]
      split at hplace <;> split <;> omega
    · rw [if_neg hplace]

/-- The place where a stretch ends that has an end, and the end of the list if
it has none. -/
def placeOfEnd (stop : Option Int) (n : Nat) : Int :=
  (stop.map fun j => placeBetween j n).getD n

/-- It lies inside the list. -/
theorem placeBetween_mem (n : Nat) :
    0 ≤ placeBetween i n ∧ placeBetween i n ≤ n := by
  unfold placeBetween
  omega

/-- **The stretch between two indices** goes from place to place, and not
backward. If the second index is in front of the first, the stretch is empty
and begins at the first. -/
theorem clampRange_eq (stop : Option Int) (n : Nat) :
    ((Builtin.clampRange i stop n).1 : Int) = placeBetween i n ∧
      ((Builtin.clampRange i stop n).2 : Int) = max (placeBetween i n)
      (placeOfEnd stop n) := by
  have hstart := clampPosition_eq i n
  refine ⟨hstart, ?_⟩
  cases stop with
  | none =>
    show ((max (Builtin.clampPosition i n) n : Nat) : Int)
        = max (placeBetween i n) n
    omega
  | some j =>
    have hend := clampPosition_eq j n
    show ((max (Builtin.clampPosition i n)
        (Builtin.clampPosition j n) : Nat) : Int) =
      max (placeBetween i n) (placeBetween j n)
    omega

/-- **The stretch between two indices** lies inside the list. This is what
makes cutting it out safe: neither of its ends is outside. -/
theorem clampRange_le (stop : Option Int) (n : Nat) :
    (Builtin.clampRange i stop n).1 ≤ (Builtin.clampRange i stop n).2 ∧
      (Builtin.clampRange i stop n).2 ≤ n := by
  obtain ⟨hstart, hend⟩ := clampRange_eq i stop n
  have hmem := placeBetween_mem i n
  have hlast : placeOfEnd stop n ≤ n := by
    cases stop with
    | none => exact Int.le_refl _
    | some j => exact (placeBetween_mem j n).2
  omega

/-- **What is cut out of a list** stands between what is before it and what is
behind it. The length is the distance of the two places, or nothing if they are
the wrong way round. -/
theorem sliceOf_cases (stop : Option Int) :
    ∃ front back, items = front ++ Builtin.sliceOf i stop items ++ back ∧
      (front.length : Int) = placeBetween i items.length ∧
      ((Builtin.sliceOf i stop items).length : Int) =
        max 0 (placeOfEnd stop items.length - placeBetween i items.length) := by
  obtain ⟨hstart, hend⟩ := clampRange_eq i stop items.length
  obtain ⟨hab, hb⟩ := clampRange_le i stop items.length
  unfold Builtin.sliceOf
  generalize Builtin.clampRange i stop items.length
    = range at hstart hend hab hb
  obtain ⟨a, b⟩ := range
  dsimp only at hstart hend hab hb ⊢
  refine ⟨items.take a, items.drop b, ?_, ?_, ?_⟩
  · have hdrop : (items.drop a).drop (b - a) = items.drop b := by
      rw [List.drop_drop, Nat.add_sub_cancel' hab]
    rw [List.append_assoc, ← hdrop, List.take_append_drop,
      List.take_append_drop]
  · rw [List.length_take, Nat.min_eq_left (Nat.le_trans hab hb)]
    exact hstart
  · rw [List.length_take, List.length_drop, Nat.min_eq_left (by omega)]
    omega

/-- What is in front of a place and what is behind it are the whole list. -/
theorem sliceOf_append_sliceOf :
    Builtin.sliceOf 0 (some i) items ++ Builtin.sliceOf i none items
      = items := by
  have hzero : Builtin.clampPosition 0 items.length = 0 := by
    unfold Builtin.clampPosition Value.position
    omega
  have hle : Builtin.clampPosition i items.length ≤ items.length :=
    (clampRange_le i (some i) items.length).1.trans
      (clampRange_le i (some i) items.length).2
  unfold Builtin.sliceOf Builtin.clampRange
  simp only [hzero, Option.map_some, Option.map_none, Option.getD_some,
    Option.getD_none, Nat.zero_max, Nat.max_eq_right hle, List.drop_zero,
    Nat.sub_zero]
  have hrest : (items.drop (Builtin.clampPosition i items.length)).take
      (items.length - Builtin.clampPosition i items.length) =
        items.drop (Builtin.clampPosition i items.length) :=
    List.take_of_length_le (Nat.le_of_eq List.length_drop)
  rw [hrest, List.take_append_drop]

end Lists

/-! ## Values made of elements

Arrays are made of values, and texts of characters. For both, `at` gives one of
these and `slice` some of them in their order, so what is said of the two is
said of a value with elements (`Indexed`), and proved once from what the two
functions do on lists. -/

namespace Builtin

variable {σ : Type} (host : Host σ) (w : World σ) {α : Type}

/-- **A value made of elements**: what `at` and `slice` make of a value that
consists of `items`, where `whole` puts such elements together and `one` is the
value of a single one. -/
structure Indexed (x : Value) (items : List α) (whole : List α → Value)
    (one : α → Value) :
    Prop where
  /-- An index that points to an element finds it, and any other is an error. -/
  element : ∀ (k : Float) (i : Int), Number.toInt64 k = i →
    (PointsInto i items.length ∧ ∃ v,
      items[(if i < 0 then items.length + i else i).toNat]? = some v ∧
        (call host .at x [.number k]).exec w = (.ok (one v), w)) ∨
    (¬ PointsInto i items.length ∧
      (call host .at x [.number k]).exec w
      = (.error (.index i items.length), w))
  /-- Two indices cut out what is between their places. -/
  stretch : ∀ (k l : Float) (i j : Int), Number.toInt64 k = i →
    Number.toInt64 l = j →
    ∃ front run back, items = front ++ run ++ back ∧
      (front.length : Int) = placeBetween i items.length ∧
      (run.length : Int)
      = max 0 (placeBetween j items.length - placeBetween i items.length) ∧
      (call host .slice x [.number k, .number l]).exec w = (.ok (whole run), w)
  /-- One index cuts out what is behind its place. -/
  behind : ∀ (k : Float) (i : Int), Number.toInt64 k = i →
    ∃ front run, items = front ++ run ∧
      (front.length : Int) = placeBetween i items.length ∧
      (call host .slice x [.number k]).exec w = (.ok (whole run), w)
  /-- What is in front of an index and what is behind it are the value again. -/
  rejoined : ∀ k : Float, ∃ front back, front ++ back = items ∧
    (call host .slice x [.number 0, .number k]).exec w
      = (.ok (whole front), w) ∧
      (call host .slice x [.number k]).exec w = (.ok (whole back), w) ∧
      (call host .concat (whole front) [whole back]).exec w = (.ok x, w)

variable {host w}

/-- A value is made of elements if the three built-in functions work on its
elements. -/
theorem indexed_of_items {x : Value} {items : List α} {whole : List α → Value}
    {one : α → Value} (hat : ∀ k, (call host .at x [.number k]).exec w =
      ((Value.elementAt? items (Number.toInt64 k)).elim
        (.error (.index (Number.toInt64 k) items.length)) fun v => .ok (one v),
        w))
    (hslice : ∀ k l, (call host .slice x [.number k, .number l]).exec w =
      (.ok (whole (sliceOf (Number.toInt64 k) (some (Number.toInt64 l)) items)),
        w))
    (hrest : ∀ k, (call host .slice x [.number k]).exec w =
      (.ok (whole (sliceOf (Number.toInt64 k) none items)), w))
    (hconcat : ∀ front back,
      (call host .concat (whole front) [whole back]).exec w =
      (.ok (whole (front ++ back)), w))
    (hwhole : whole items = x) : Indexed host w x items whole one := by
  refine ⟨fun k i hk => ?_, fun k l i j hk hl => ?_, fun k i hk => ?_,
    fun k => ?_⟩
  · subst hk
    obtain ⟨hin, v, hv, hfound⟩ | ⟨hout, hnone⟩ :=
      elementAt?_cases items (Number.toInt64 k)
    · refine .inl ⟨hin, v, hv, ?_⟩
      rw [hat, hfound]
      rfl
    · refine .inr ⟨hout, ?_⟩
      rw [hat, hnone]
      rfl
  · subst hk hl
    obtain ⟨front, back, hcut, hfront, hrun⟩ :=
      sliceOf_cases items (Number.toInt64 k) (some (Number.toInt64 l))
    exact ⟨front, _, back, hcut, hfront, hrun, hslice k l⟩
  · subst hk
    obtain ⟨front, back, hcut, hfront, hrun⟩ :=
      sliceOf_cases items (Number.toInt64 k) none
    have hback : back = [] := by
      have hlength := congrArg List.length hcut
      have hmem := placeBetween_mem (Number.toInt64 k) items.length
      rw [List.length_append, List.length_append] at hlength
      rw [placeOfEnd, Option.map_none, Option.getD_none] at hrun
      exact List.eq_nil_of_length_eq_zero (by omega)
    rw [hback, List.append_nil] at hcut
    exact ⟨front, _, hcut, hfront, hrest k⟩
  · have hzero : Number.toInt64 0 = 0 := by decide +kernel
    have hrejoined := sliceOf_append_sliceOf items (Number.toInt64 k)
    refine ⟨_, _, hrejoined, ?_, hrest k, ?_⟩
    · rw [hslice, hzero]
    · rw [hconcat, hrejoined, hwhole]

variable (host w)

/-- An element of an array, or the error that there is none. -/
theorem exec_at_array (items : List Value) (k : Float) :
    (call host .at (.array items) [.number k]).exec w =
      ((Value.elementAt? items (Number.toInt64 k)).elim
        (.error (.index (Number.toInt64 k) items.length)) .ok, w) := by
  show (elementOf (.array items) [.number k], w) = _
  simp only [elementOf, List.headD_cons, Value.asNumber, bind, Except.bind]
  cases Value.elementAt? items (Number.toInt64 k) <;> rfl

/-- A character of a text, or the error that there is none. -/
theorem exec_at_text (s : String) (k : Float) :
    (call host .at (.text s) [.number k]).exec w =
      ((Value.elementAt? s.toList (Number.toInt64 k)).elim
        (.error (.index (Number.toInt64 k) s.toList.length)) fun c =>
        .ok (textOf [c]), w) := by
  show (elementOf (.text s) [.number k], w) = _
  simp only [elementOf, List.headD_cons, Value.asText, Value.asNumber, bind,
    Except.bind]
  cases Value.elementAt? s.toList (Number.toInt64 k) <;> rfl

/-- An array is made of its elements, -/
theorem indexed_array (items : List Value) :
    Indexed host w (.array items) items .array id := by
  refine indexed_of_items (exec_at_array host w items) (fun k l => rfl)
    (fun k => rfl) (fun front back => ?_) rfl
  show (Except.ok (Value.array (front ++ (back ++ []))), w) = _
  rw [List.append_nil]

/-- and a text of its characters. -/
theorem indexed_text (s : String) :
    Indexed host w (.text s) s.toList textOf fun c => textOf [c] := by
  refine indexed_of_items (exec_at_text host w s) (fun k l => rfl)
    (fun k => rfl) (fun front back => ?_)
    (congrArg Value.text String.ofList_toList)
  show (Except.ok
      (Value.text (String.ofList front ++ String.join [String.ofList back])), w)
      = _
  rw [String.join_cons, String.join_nil, String.append_empty,
    ← String.ofList_append]
  rfl

/-! ## The member operator

The member operator asks for a value under a key, and an array has its elements
under their positions. The key is an expression in brackets here: a bare name
would be taken for a text. -/

/-- **A key that fits a container**: a number for an array, and anything for a
map. Other containers have no members, and an array asked for a text has none
either. -/
inductive KeyFits : Value → Value → Prop
  | element (items : List Value) (k : Float) :
      KeyFits (.array items) (.number k)
  | entry (entries : Table Value) (key : Value) : KeyFits (.map entries) key

/-- What `at` finds under a key is what is the member. -/
theorem exec_at_of_keyFits {c key : Value} (h : KeyFits c key) :
    (call host .at c [key]).exec w = (c.member key, w) := by
  cases h with
  | element items k =>
    rw [exec_at_array, Value.member]
    cases Value.elementAt? items (Number.toInt64 k) <;> rfl
  | entry entries key => rfl

/-- **The member operator is the function `at`**, where the key fits the
container. The container is evaluated before the key, and what the key's
evaluation does to the world is done before the look-up. -/
theorem exec_eval_member {calls : Callables σ} {scope : Scope}
    {left right : Expr} {w₀ w₁ w₂ : World σ} {c key : Value} (h : KeyFits c key)
    (hleft : (left.eval calls scope).exec w₀ = (.ok c, w₁))
    (hright : (right.eval calls scope).exec w₁ = (.ok key, w₂)) :
    ((Expr.binary left .member (.group right)).eval calls scope).exec w₀ =
      (call host .at c [key]).exec w₂ := by
  have hgroup : ((Expr.group right).eval calls scope).exec w₁ = (.ok key, w₂) :=
    hright
  rw [Expr.eval_member (fun _ hname => by cases hname), Act.exec_bind, hleft]
  dsimp only
  rw [Act.exec_bind, hgroup, exec_at_of_keyFits host w₂ h]
  rfl

/-- **Positions are counted alike everywhere**, and no position goes astray.
Arrays and texts are made of elements for `at` and `slice`; the member operator
finds what `at` finds; and the places that all of them use are those of 64-bit
arithmetic, and lie inside the list. -/
theorem positions_agree :
    (∀ items, Indexed host w (.array items) items .array id) ∧
      (∀ s : String, Indexed host w (.text s) s.toList textOf fun c =>
        textOf [c]) ∧
      (∀ (calls : Callables σ) (scope : Scope) (left right : Expr) (w₀ w₁ : World σ)
        (c key : Value), KeyFits c key →
        (left.eval calls scope).exec w₀ = (.ok c, w₁) →
        (right.eval calls scope).exec w₁ = (.ok key, w) →
        ((Expr.binary left .member (.group right)).eval calls scope).exec w₀ =
          (call host .at c [key]).exec w) ∧
      (∀ k : Float, ∃ i : Int64, i.toInt = Number.toInt64 k) ∧
      (∀ (i : Int64) (n : Nat), n ≤ Number.greatestInt64 →
        (wrappedPosition i n).toInt = Value.position i.toInt n ∧
          (wrappedClamp i n).toInt = clampPosition i.toInt n) ∧
      ∀ (i : Int) (stop : Option Int) (n : Nat),
        (clampRange i stop n).1 ≤ (clampRange i stop n).2 ∧
        (clampRange i stop n).2 ≤ n :=
  ⟨indexed_array host w, indexed_text host w,
    fun _ _ _ _ _ _ _ _ h hleft hright => exec_eval_member host h hleft hright,
    exists_toInt_eq_toInt64,
    fun i _ h => ⟨toInt_wrappedPosition h i, toInt_wrappedClamp h i⟩,
    clampRange_le⟩

/-- The first place of a text, the place before it, an element that the member
operator counts from the end, and the least index of all. -/
theorem positions_agree_boundaries :
    Number.toInt64 (-3) = -3 ∧ Number.toInt64 (-4) = -4 ∧
      (call (Host.none Unit) .at (.text "abc") [.number (-3)]).exec
        { host := () } = (.ok (.text "a"), { host := () }) ∧
      (call (Host.none Unit) .at (.text "abc") [.number (-4)]).exec
        { host := () } = (.error (.index (-4) 3), { host := () }) ∧
      ((Expr.binary (.array [.truth true]) .member (.group (.number (-4)))).eval
          ⟨fun _ => false, fun name _ _ => throw (.unknownName name)⟩
          { stream := .empty, index := 0, vars := [] }).exec { host := () } =
        (call (Host.none Unit) .at (.array [.truth true]) [.number (-4)]).exec
        { host := () } ∧
      KeyFits (.array [.truth true]) (.number (-4)) ∧ 3 ≤ Number.greatestInt64 ∧
      (wrappedPosition Int64.minValue 3).toInt = -9223372036854775805 ∧
      (wrappedClamp Int64.minValue 3).toInt = 0 := by
  have hfirst : Number.toInt64 (-3) = -3 := by decide +kernel
  have hbefore : Number.toInt64 (-4) = -4 := by decide +kernel
  have hfits : KeyFits (.array [.truth true]) (.number (-4)) := .element _ _
  obtain ⟨-, htext, hmember, -, hwrapped, -⟩ :=
    positions_agree (Host.none Unit) { host := () }
  obtain ⟨hposition, hclamp⟩ := hwrapped Int64.minValue 3 (by decide)
  refine ⟨hfirst, hbefore, ?_, ?_, hmember _ _ _ _ _ _ _ _ hfits rfl rfl,
    hfits, by decide, hposition, hclamp⟩
  · obtain ⟨-, c, hc, hat⟩ | ⟨hout, -⟩ := (htext "abc").element (-3) (-3) hfirst
    · obtain rfl : 'a' = c := Option.some.inj hc
      exact hat
    · exact absurd (by decide) hout
  · obtain ⟨hin, -⟩ | ⟨-, hat⟩ := (htext "abc").element (-4) (-4) hbefore
    · exact absurd hin (by decide)
    · exact hat

end Builtin

end StreamScript
