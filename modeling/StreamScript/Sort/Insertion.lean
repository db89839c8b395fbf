/-!
# Sorting by insertion

Elements are compared by a function that may fail. A comparison that fails
counts as equal, and the first failure of all is remembered; so which
comparisons a sort makes, and in which order, decides how it fails.

`insertionSort` takes the elements one by one from the front and moves each
ahead of those that it comes before, beginning at the last one. Equal elements
keep their places.
-/

namespace StreamScript.Sort

/-- A step of sorting, with the first failure so far. -/
abbrev Sorting (ε α : Type) : Type := StateM (Option ε) α

variable {ε α : Type} (less : α → α → Except ε Bool)

/-- **Whether one element comes before another.** -/
def isBefore (x y : α) : Sorting ε Bool := fun failure =>
  match less x y with
  | .ok b => (b, failure)
  | .error e => (false, failure.or (some e))

/-- Puts an element behind those that it does not come before. The elements are
held in reverse. -/
def place (x : α) : List α → Sorting ε (List α)
  | [] => return [x]
  | y :: ys => do
    if ← isBefore less x y then
      let ys ← place x ys
      return y :: ys
    else return x :: y :: ys

/-- Puts elements in their places among those that are sorted. These are held
in reverse, and so is the result. -/
def placeAll (sorted : List α) : List α → Sorting ε (List α)
  | [] => return sorted
  | x :: xs => do
    let sorted ← place less x sorted
    placeAll sorted xs

/-- **Sorts by insertion.** -/
def insertionSort (xs : List α) : Sorting ε (List α) := do
  let sorted ← placeAll less [] xs
  return sorted.reverse

end StreamScript.Sort
