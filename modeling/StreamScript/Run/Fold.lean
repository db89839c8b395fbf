import StreamScript.Value.Order
import StreamScript.ScopeKind
import StreamScript.Sort.Runs

/-!
# Folding the results of a block

When a scope closes, every element it went through has a result: what the block
made of the element. `ScopeKind.fold` puts the elements and their results
together, in the way of the scope.

Results that all have an order are sorted in the one way that keeps equal ones
in their places. Where some have none, a comparison that fails counts as equal,
and the first failure is the error of the whole. Which one that is depends on
the comparisons that are made, so these are fixed: a few elements are sorted by
insertion, and more of them by runs.
-/

namespace StreamScript

/-- An element of a scope's value, and what the block has made of it. -/
structure Yield where
  result : Value
  origin : Value

namespace Yield

/-- Whether one element comes before another, or why they cannot be compared. -/
def isBefore (x y : Yield) : Except RunError Bool :=
  (x.result.compare y.result).map (· == .lt)

/-- Whether one element may stay in front of another. -/
def staysBefore (x y : Yield) : Bool :=
  match y.isBefore x with
  | .ok comesFirst => !comesFirst
  | .error _ => true

/-- How many elements are a few. -/
def few : Nat := 20

/-- Sorts elements by one comparison after the other. The first that fails is
the error of the whole. Numbers that are none compare equal to all others, so
the comparisons need not be an order; what a long sort does then is said at
`Sort.mergeHalves`. -/
def sortBySteps (yields : List Yield) : Except RunError (List Yield) :=
  let sorting :=
    if yields.length ≤ few then Sort.insertionSort isBefore yields
    else Sort.sort isBefore yields
  match sorting.run none with
  | (_, some e) => .error e
  | (sorted, none) => .ok sorted

/-- **Sorts elements** by their results, equal ones in the order in which they
came. Where all results have an order the comparisons need not be looked at. -/
def sort (yields : List Yield) : Except RunError (List Yield) :=
  if yields.all (·.result.isOrderly) then .ok (yields.mergeSort staysBefore)
  else sortBySteps yields

end Yield

/-- The element, if its result is true. -/
def Yield.kept? (y : Yield) : Except RunError (Option Value) :=
  y.result.asTruth.map fun keep => if keep then some y.origin else none

/-- The elements whose result is true. -/
def keepTrue (yields : List Yield) : Except RunError (List Value) :=
  (yields.mapM Yield.kept?).map fun kept => kept.filterMap id

/-- The sum of the results, from zero. -/
def sumResults (yields : List Yield) : Except RunError Value :=
  yields.foldlM (fun sum y => sum.add y.result) (.number 0)

/-- The elements grouped by their results, in the order in which the results
first came. -/
def groupByResult (yields : List Yield) : Except RunError (Table Value) :=
  yields.foldlM (fun groups y => Value.addToGroup groups y.result y.origin) []

/-- **Folds the results of a block** in the way of its scope. -/
def ScopeKind.fold (kind : ScopeKind) (yields : List Yield) :
    Except RunError Value :=
  match kind with
  | .map => .ok (.array (yields.map Yield.result))
  | .filter => (keepTrue yields).map .array
  | .sortBy => (Yield.sort yields).map fun sorted =>
    .array (sorted.map Yield.origin)
  | .sumBy => sumResults yields
  | .pivot => (groupByResult yields).map .map
  | .do => .ok ((yields.head?.map Yield.result).getD .empty)

end StreamScript
