import StreamScript.Value.Basic

/-!
# Operators on values

`+` goes by its left operand: numbers are added, texts are continued, arrays
are joined. The other operators of arithmetic and the four relations work on
numbers only and follow the rules of floats, so that a division by zero has a
value.

Equality compares values of one kind directly. A text and a value of another
kind are compared as texts, the remaining mixtures as numbers, and arrays and
maps refuse to be compared at all.
-/

namespace StreamScript.Value

/-- The error of an operator on two values it is not defined for. -/
def refuse {α : Type} (symbol : String) (l r : Value) : Except RunError α :=
  .error (.operator symbol l.kind r.kind)

/-- **Addition**, by the kind of the left operand. -/
def add (l r : Value) : Except RunError Value :=
  match l, r with
  | .number x, .number y => .ok (.number (x + y))
  | .number x, .truth b => .ok (.number (x + if b then 1 else 0))
  | .text _, .array _ => refuse "+" l r
  | .text _, .map _ => refuse "+" l r
  | .text s, _ => .ok (.text (s ++ r.display))
  | .array xs, .array ys => .ok (.array (xs ++ ys))
  | _, _ => refuse "+" l r

/-- The operations of arithmetic besides addition. -/
def arithmetic? : String → Option (Float → Float → Float)
  | "-" => some (· - ·)
  | "*" => some (· * ·)
  | "/" => some (· / ·)
  | _ => none

/-- **Subtraction, multiplication and division** of numbers. -/
def arith (symbol : String) (l r : Value) : Except RunError Value :=
  match l, r, arithmetic? symbol with
  | .number x, .number y, some f => .ok (.number (f x y))
  | _, _, _ => refuse symbol l r

/-- The relations between numbers. -/
def relation? : String → Option (Float → Float → Bool)
  | "<" => some fun x y => x < y
  | ">" => some fun x y => y < x
  | "<=" => some fun x y => x ≤ y
  | ">=" => some fun x y => y ≤ x
  | _ => none

/-- **The four relations** of numbers. -/
def relate (symbol : String) (l r : Value) : Except RunError Bool :=
  match l, r, relation? symbol with
  | .number x, .number y, some f => .ok (f x y)
  | _, _, _ => refuse symbol l r

/-- **Equality**, by the kinds of the operands. -/
def equals (l r : Value) : Except RunError Bool :=
  match l, r with
  | .array _, _ | .map _, _ | _, .array _ | _, .map _ => refuse "=" l r
  | .number x, .number y => .ok (x == y)
  | .truth a, .truth b => .ok (a == b)
  | .text s, _ => .ok (s == r.display)
  | _, .text t => .ok (l.display == t)
  | .number x, .truth b => .ok (x == if b then 1 else 0)
  | .truth a, .number y => .ok ((if a then 1 else 0) == y)

/-- The opposite of a number. -/
def negate : Value → Except RunError Value
  | .number x => .ok (.number (-x))
  | v => .error (.unary "-" v.kind)

/-- The opposite of a truth value, or of what serves as one. -/
def not (v : Value) : Except RunError Value :=
  match v.asTruth with
  | .ok b => .ok (.truth !b)
  | .error _ => .error (.unary "!" v.kind)

/-! ## Positions -/

/-- The place that an index points to, counted from the end if it is
negative. -/
def position (i : Int) (length : Nat) : Int :=
  if i < 0 then length + i else i

/-- **The element at an index**, if the index points into the list. -/
def elementAt? {α : Type} (items : List α) (i : Int) : Option α :=
  let p := position i items.length
  if 0 ≤ p then items[p.toNat]? else none

/-- The member operator: an entry of a map, or an element of an array by its
number. -/
def member (container key : Value) : Except RunError Value :=
  match container, key with
  | .map entries, _ =>
    match entry? entries key with
    | some v => .ok v
    | none => .error (.missingKey key.display)
  | .array items, .number x =>
    let i := Number.toInt64 x
    match elementAt? items i with
    | some v => .ok v
    | none => .error (.index i items.length)
  | _, _ => refuse "." container key

end StreamScript.Value
