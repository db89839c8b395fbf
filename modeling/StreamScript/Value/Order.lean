import StreamScript.Value.Operator
import StreamScript.Text.Order

/-!
# The order of values

Values are sorted by an order that puts numbers last, texts before them, then
truth values, and arrays first. Within a kind numbers go by size, texts by
`Text.collate`, `true` comes after `false`, and arrays are compared element by
element and then by length. A number that is no number compares equal to every
number.

Maps have no order: wherever one is met the comparison fails. `isOrderly` says
which values the order covers.
-/

namespace StreamScript.Value

/-- Numbers by size; what is not a number is neither smaller nor greater. -/
def compareNumbers (x y : Float) : Ordering :=
  if x < y then .lt else if y < x then .gt else .eq

/-- `false` before `true`. -/
def compareTruths : Bool → Bool → Ordering
  | false, true => .lt
  | true, false => .gt
  | _, _ => .eq

mutual

/-- **The order of values**, which maps have none of. -/
def compare : Value → Value → Except RunError Ordering
  | .map entries, r => refuse "compare" (.map entries) r
  | l, .map entries => refuse "compare" l (.map entries)
  | .number x, .number y => .ok (compareNumbers x y)
  | .text s, .text t => .ok (Text.collate s.toList t.toList)
  | .truth a, .truth b => .ok (compareTruths a b)
  | .array xs, .array ys => compareLists xs ys
  | l, r => .ok (Ord.compare l.kind.rank r.kind.rank)

/-- Arrays element by element, the shorter first where one continues the
other. -/
def compareLists : List Value → List Value → Except RunError Ordering
  | [], [] => .ok .eq
  | [], _ :: _ => .ok .lt
  | _ :: _, [] => .ok .gt
  | x :: xs, y :: ys =>
    match compare x y with
    | .ok .eq => compareLists xs ys
    | .ok order => .ok order
    | .error e => .error e

end

mutual

/-- Whether the order covers a value: it holds no map, and every number in it is
one. -/
def isOrderly : Value → Bool
  | .number x => !x.isNaN
  | .array xs => areOrderly xs
  | .map _ => false
  | .text _ | .truth _ => true

/-- Whether the order covers all elements. -/
def areOrderly : List Value → Bool
  | [] => true
  | x :: xs => isOrderly x && areOrderly xs

end

end StreamScript.Value
