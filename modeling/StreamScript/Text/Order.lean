import StreamScript.Text.Case

/-!
# The order of texts

Texts are sorted without regard to case first: two texts compare as their
lower-case forms do, code point by code point, and only where these are equal
does the case of the letters decide.
-/

namespace StreamScript.Text

/-- The order by code point, a text before its continuations. -/
def compareChars : List Char → List Char → Ordering
  | [], [] => .eq
  | [], _ :: _ => .lt
  | _ :: _, [] => .gt
  | a :: as, b :: bs =>
    match compare a.toNat b.toNat with
    | .eq => compareChars as bs
    | order => order

/-- **The order of texts**: by lower case, then by code point. -/
def collate (a b : List Char) : Ordering :=
  match compareChars (toLower a) (toLower b) with
  | .eq => compareChars a b
  | order => order

/-- Texts that compare equal by code point are equal. -/
theorem compareChars_eq_iff {a b : List Char} :
    compareChars a b = .eq ↔ a = b := by
  induction a generalizing b with
  | nil => cases b <;> simp [compareChars]
  | cons x xs ih =>
    cases b with
    | nil => simp [compareChars]
    | cons y ys =>
      simp only [compareChars, List.cons.injEq]
      rcases h : compare x.toNat y.toNat with _ | _ | _
      · have := Nat.compare_eq_lt.1 h
        simp only [reduceCtorEq, false_iff, not_and]
        intro e
        simp [e] at this
      · have hxy : x = y := Char.toNat_inj.1 (Nat.compare_eq_eq.1 h)
        simp [ih, hxy]
      · have := Nat.compare_eq_gt.1 h
        simp only [reduceCtorEq, false_iff, not_and]
        intro e
        simp [e] at this

end StreamScript.Text
