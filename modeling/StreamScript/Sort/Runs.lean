import StreamScript.Sort.Insertion

/-!
# Sorting by runs

Long lists are sorted by the runs that they hold already. A list is read from
the front as runs: a long stretch that ascends, or descends strictly, is one as
it stands, and anything else is taken as a run that is yet to be sorted.
Neighbouring runs are merged in an order that keeps the merges balanced. A run
without order is sorted by partition around a pivot, and a short one by sorting
its halves and merging them from both ends.

For an order there is only one way to sort elements and keep equal ones in
their places, so all this could be seen in nothing but speed. It shows where
comparisons fail or contradict one another, and the order in which they are
made is fixed here for that. A list of which the comparisons contradict one
another may come out changed; the places where that can happen are those of
`mergeHalves`.
-/

namespace StreamScript.Sort

variable {ε α : Type} (less : α → α → Except ε Bool)

/-! ## Merging -/

/-- Merges two sorted lists from the front. -/
def mergeFront : List α → List α → Sorting ε (List α)
  | [], ys => return ys
  | xs, [] => return xs
  | x :: xs, y :: ys => do
    if ← isBefore less y x then
      let rest ← mergeFront (x :: xs) ys
      return y :: rest
    else
      let rest ← mergeFront xs (y :: ys)
      return x :: rest
termination_by xs ys => xs.length + ys.length

/-- Merges two sorted lists from the back. They are held in reverse, and so is
the result. -/
def mergeBack : List α → List α → Sorting ε (List α)
  | [], ys => return ys
  | xs, [] => return xs
  | x :: xs, y :: ys => do
    if ← isBefore less y x then
      let rest ← mergeBack xs (y :: ys)
      return x :: rest
    else
      let rest ← mergeBack (x :: xs) ys
      return y :: rest
termination_by xs ys => xs.length + ys.length

/-- **Merges two sorted lists**, from the side of the shorter one. -/
def merge (xs ys : List α) : Sorting ε (List α) :=
  if xs.length ≤ ys.length then mergeFront less xs ys
  else do
    let merged ← mergeBack less xs.reverse ys.reverse
    return merged.reverse

/-- One step of a merge: the element to take, and what is left. If `back`, the
lists are held in reverse, and the later element is taken. -/
def takeOne (back : Bool) (xs ys : List α) :
    Sorting ε (Option α × List α × List α) :=
  match xs, ys with
  | x :: xs, y :: ys => do
    let swapped ← isBefore less y x
    return if swapped != back then (some y, x :: xs, ys)
      else (some x, xs, y :: ys)
  | x :: xs, [] => return (some x, xs, [])
  | [], y :: ys => return (some y, [], ys)
  | [], [] => return (none, [], [])

/-- Merges two halves from both ends at once, so many elements from each. It
yields the first elements and the last ones, what the front has left of both
halves, and what the back has left of the first half. -/
def mergeEnds (xs ys xsBack ysBack : List α) (front back : List α) :
    Nat → Sorting ε (List α × List α × List α × List α × List α)
  | 0 => return (front.reverse, back, xs, ys, xsBack)
  | n + 1 => do
    let (first, xs, ys) ← takeOne less false xs ys
    let (last, xsBack, ysBack) ← takeOne less true xsBack ysBack
    mergeEnds xs ys xsBack ysBack (first.toList ++ front)
      (last.toList ++ back) n

/-- Merges two halves of about the same length. If one element is left over in
the middle, it is the next of the half that is not used up.

Where the comparisons are an order the two ends meet, and every element is
taken once. Comparisons that contradict one another may let them miss each
other, and then elements come twice or not at all. The sort that this one
follows looks whether the ends have met and stops the program if they have not;
that look is left out here. -/
def mergeHalves (xs ys : List α) : Sorting ε (List α) := do
  let n := (xs.length + ys.length) / 2
  let (front, back, xsLeft, ysLeft, xsBack) ←
    mergeEnds less xs ys xs.reverse ys.reverse [] [] n
  let middle := if xs.length < xsLeft.length + xsBack.length then xsLeft.head?
    else ysLeft.head?
  return if (xs.length + ys.length) % 2 = 0 then front ++ back
    else front ++ middle.toList ++ back

/-! ## Short lists -/

/-- Sorts four elements. -/
def sortFour (p q r s : α) : Sorting ε (List α) := do
  let swapFirst ← isBefore less q p
  let swapLast ← isBefore less s r
  let (a, b) := if swapFirst then (q, p) else (p, q)
  let (c, d) := if swapLast then (s, r) else (r, s)
  let lowRight ← isBefore less c a
  let highLeft ← isBefore less d b
  let low := if lowRight then c else a
  let high := if highLeft then b else d
  let left := if lowRight then a else if highLeft then c else b
  let right := if highLeft then d else if lowRight then b else c
  let swapMiddle ← isBefore less right left
  return if swapMiddle then [low, right, left, high]
    else [low, left, right, high]

/-- The beginning of a half, sorted and held in reverse, and the rest of it. -/
def startHalf (whole : Nat) (xs : List α) : Sorting ε (List α × List α) :=
  match xs with
  | p :: q :: r :: s :: rest =>
    if whole < 8 then return ([], xs)
    else do
      let sorted ← sortFour less p q r s
      return (sorted.reverse, rest)
  | _ => return ([], xs)

/-- **Sorts a short list**, by its halves. -/
def shortSort (xs : List α) : Sorting ε (List α) := do
  let (first, second) := xs.splitAt (xs.length / 2)
  let (first, restFirst) ← startHalf less xs.length first
  let (second, restSecond) ← startHalf less xs.length second
  let first ← placeAll less first restFirst
  let second ← placeAll less second restSecond
  mergeHalves less first.reverse second.reverse

/-- How long a short list may be. -/
def shortLength : Nat := 32

/-! ## Runs -/

/-- **A run**: neighbouring elements, sorted or yet to be. -/
structure Run (α : Type) where
  items : List α
  sorted : Bool

/-- How many elements a run goes on for behind `x`, if each comes before the
one before it or, not `descending`, none does. -/
def runBehind (descending : Bool) (x : α) : List α → Sorting ε Nat
  | [] => return 0
  | y :: ys => do
    if (← isBefore less y x) = descending then
      let n ← runBehind descending y ys
      return n + 1
    else return 0

/-- How long the run at the front of a list is, and whether it descends. -/
def runLength : List α → Sorting ε (Nat × Bool)
  | x :: y :: ys => do
    let descending ← isBefore less y x
    let n ← runBehind less descending y ys
    return (n + 2, descending)
  | xs => return (xs.length, false)

/-- **Takes a run from the front.** One that is long enough stays as it is,
turned around if it descends. If not, elements are taken for a run: `eager`,
they are sorted at once. -/
def takeRun (eager : Bool) (long : Nat) (xs : List α) :
    Sorting ε (Run α × List α) := do
  let (n, descending) ← if long ≤ xs.length then runLength less xs
      else pure (0, false)
  if long ≤ n then
    let items := xs.take n
    return (⟨if descending then items.reverse else items, true⟩, xs.drop n)
  else if eager then
    let items ← shortSort less (xs.take shortLength)
    return (⟨items, true⟩, xs.drop shortLength)
  else return (⟨xs.take long, false⟩, xs.drop long)

/-- The square root, about. -/
def aboutRoot (n : Nat) : Nat :=
  let shift := (1 + Nat.log2 n) / 2
  (Nat.pow 2 shift + n / Nat.pow 2 shift) / 2

/-- How long a run has to be to stay as it is, in a list of `n` elements. -/
def longEnough (n : Nat) : Nat :=
  if n ≤ 4096 then min (n - n / 2) 64 else aboutRoot n

/-- How deep two neighbouring runs, between the places `left`, `middle` and
`right` of a list of `n` elements, are merged in a balanced tree of merges: as
deep as the binary fractions of their centres agree. -/
def mergeDepth (n left middle right : Nat) : Nat :=
  let scale := (Nat.pow 2 62 + n - 1) / n
  let differing := Nat.xor (scale * (left + middle)) (scale * (middle + right))
  64 - (if differing = 0 then 0 else Nat.log2 differing + 1)

/-- Merges two runs. Two that are yet to be sorted become one of that kind. -/
def mergeRuns (sort : List α → Sorting ε (List α)) (left right : Run α) :
    Sorting ε (Run α) := do
  if left.sorted || right.sorted then
    let xs ← if left.sorted then pure left.items else sort left.items
    let ys ← if right.sorted then pure right.items else sort right.items
    let merged ← merge less xs ys
    return ⟨merged, true⟩
  else return ⟨left.items ++ right.items, false⟩

/-- Merges a run with those before it that lie at least so deep. The runs
before it are held in reverse, each with the depth at which it meets the
next. -/
def mergeBelow (sort : List α → Sorting ε (List α)) (depth : Nat) :
    List (Run α × Nat) → Run α → Sorting ε (List (Run α × Nat) × Run α)
  | [], run => return ([], run)
  | (left, d) :: before, run => do
    if depth ≤ d then
      let merged ← mergeRuns less sort left run
      mergeBelow sort depth before merged
    else return ((left, d) :: before, run)

/-- Takes runs up to the end of a list of `n` elements and merges them. `last`
is the run taken last, which ends at the place `stop`. -/
def mergeOn (eager : Bool) (sort : List α → Sorting ε (List α)) (n : Nat)
    (before : List (Run α × Nat)) (last : Run α) (stop : Nat) (xs : List α) :
    Sorting ε (Run α) := do
  if xs.isEmpty then
    let (_, run) ← mergeBelow less sort 0 before last
    return run
  else
    let (run, rest) ← takeRun less eager (longEnough n) xs
    let next := stop + run.items.length
    let depth := mergeDepth n (stop - last.items.length) stop next
    let (before, merged) ← mergeBelow less sort depth before last
    if rest.length < xs.length then
      mergeOn eager sort n ((merged, depth) :: before) run next rest
    else return merged
termination_by xs.length

/-- **Sorts a list by its runs.** -/
def runSort (eager : Bool) (sort : List α → Sorting ε (List α)) (xs : List α) :
    Sorting ε (List α) := do
  let (run, rest) ← takeRun less eager (longEnough xs.length) xs
  let whole ← mergeOn less eager sort xs.length [] run run.items.length rest
  if whole.sorted then return whole.items else sort whole.items

/-! ## Partition -/

/-- Whether the element at one place comes before that at another. -/
def isBeforeAt (xs : Array α) (i j : Nat) : Sorting ε Bool :=
  match xs[i]?, xs[j]? with
  | some x, some y => isBefore less x y
  | _, _ => return false

/-- The place of the middle one of three elements. -/
def medianAt (xs : Array α) (i j k : Nat) : Sorting ε Nat := do
  let beforeSecond ← isBeforeAt less xs i j
  let beforeThird ← isBeforeAt less xs i k
  if beforeSecond = beforeThird then
    let ordered ← isBeforeAt less xs j k
    return if ordered = beforeSecond then j else k
  else return i

/-- The place of an element about in the middle of many: the median of three,
each of which is found in the same way among `n` neighbours if those are
many. -/
def middleOf (xs : Array α) (i j k n : Nat) : Sorting ε Nat := do
  if 8 ≤ n then
    let m := n / 8
    let i ← middleOf xs i (i + 4 * m) (i + 7 * m) m
    let j ← middleOf xs j (j + 4 * m) (j + 7 * m) m
    let k ← middleOf xs k (k + 4 * m) (k + 7 * m) m
    medianAt less xs i j k
  else medianAt less xs i j k
termination_by n

/-- The place of the pivot of a list. -/
def pivotAt (xs : List α) : Sorting ε Nat :=
  let n := xs.length / 8
  middleOf less xs.toArray 0 (4 * n) (7 * n) n

/-- Splits elements by a test. -/
def splitBy (test : α → Sorting ε Bool) : List α → Sorting ε (List α × List α)
  | [] => return ([], [])
  | x :: xs => do
    let left ← test x
    let (ls, rs) ← splitBy test xs
    return if left then (x :: ls, rs) else (ls, x :: rs)

/-- Splits a list around the pivot, which goes to the side that it is told
to. -/
def splitAround (test : α → Sorting ε Bool) (pivotLeft : Bool) (before : List α)
    (pivot : α) (after : List α) : Sorting ε (List α × List α) := do
  let (ls, rs) ← splitBy test before
  let (ls', rs') ← splitBy test after
  return if pivotLeft then (ls ++ pivot :: ls', rs ++ rs')
    else (ls ++ ls', rs ++ pivot :: rs')

/-- **Sorts by partition.** Elements equal to the pivot are set apart if the
pivot is no greater than `ancestor`, the one that all elements come behind, or
the least of all. After `limit` partitions the rest is sorted by its runs. -/
def partitionSort (limit : Nat) (ancestor : Option α) (xs : List α) :
    Sorting ε (List α) := do
  if xs.length ≤ shortLength then shortSort less xs
  else
    match limit with
    | 0 => runSort less true pure xs
    | limit + 1 =>
      let p ← pivotAt less xs
      match xs.drop p with
      | [] => return xs
      | pivot :: after =>
        let before := xs.take p
        let least ← match ancestor with
          | some a => isBefore less a pivot
          | none => pure true
        let (left, right) ←
          if least then
            splitAround (isBefore less · pivot) false before pivot after
          else pure ([], xs)
        if left.isEmpty then
          let notAfter := fun x => do
            let behind ← isBefore less pivot x
            return !behind
          let (equal, right) ← splitAround notAfter true before pivot after
          let right ← partitionSort limit none right
          return equal ++ right
        else
          let right ← partitionSort limit (some pivot) right
          let left ← partitionSort limit ancestor left
          return left ++ right

/-- Sorts by partition, with as many partitions as a list of that length
deserves. -/
def sortUnordered (xs : List α) : Sorting ε (List α) :=
  partitionSort less (2 * Nat.log2 xs.length) none xs

/-- **Sorts a list.** Up to twice the length of a short one its runs are sorted
as they are taken. -/
def sort (xs : List α) : Sorting ε (List α) :=
  runSort less (xs.length ≤ 2 * shortLength) (sortUnordered less) xs

end StreamScript.Sort
