import StreamScript.Number.Binary

/-!
# The fewest digits that read back

A finite float is written with as few decimal digits as still determine it. The
reals that round to it form an interval, reaching halfway to either neighbour;
any decimal inside that interval reads back as the float. So the text is found
by looking at coarser decimal grids first: of one digit, of two, and so on, the
first grid with a point in the interval wins, and of two such points the one
closer to the value.

Everything is exact. A value is `m · 2^q`, a grid point `d · 10^e`, and
comparing the two is comparing natural numbers (`compareScaled`).

A grid point may lie at the very end of the interval, where rounding goes to
the neighbour with the even mantissa, and two grid points may be equally close.
The ends are settled by the float's own mantissa; the tie is left to the
format that asks (`Tie`).
-/

namespace StreamScript.Number

/-- A decimal `digits · 10^exponent`. -/
structure Decimal where
  digits : Nat
  exponent : Int
deriving DecidableEq, Repr

/-- Which of two equally close decimals of one length is taken. -/
inductive Tie where
  /-- The one with the even last digit. -/
  | even
  /-- The greater one. -/
  | up
deriving DecidableEq, Repr

/-- Compares `a · 10^i` with `n · 2^j`. -/
def compareScaled (a : Nat) (i : Int) (n : Nat) (j : Int) : Ordering :=
  compare (a * Nat.pow 10 i.toNat * Nat.pow 2 (-j).toNat)
    (n * Nat.pow 2 j.toNat * Nat.pow 10 (-i).toNat)

/-- **A decimal reads back** as the float `m · 2^q` when it lies between the
halfway points to the two neighbours, or on one of them if `m` is even. The gap
below a power of two is half as wide as the gap above. -/
def readsBack (m : Nat) (q : Int) (d : Decimal) : Bool :=
  let narrow := m == 0x10000000000000 && q != -1074
  let low := if narrow then 4 * m - 1 else 4 * m - 2
  let below := compareScaled d.digits d.exponent low (q - 2)
  let above := compareScaled d.digits d.exponent (4 * m + 2) (q - 2)
  (below == .gt || (m % 2 == 0 && below == .eq))
    && (above == .lt || (m % 2 == 0 && above == .eq))

/-- The least `k` with `m · 2^q < 10^k`. The binary logarithm fixes it up to
three candidates. -/
def decimalScale (m : Nat) (q : Int) : Int :=
  let estimate := ((m.log2 : Int) + q) * 1233 / 4096
  if compareScaled 1 estimate m q == .gt then estimate
  else if compareScaled 1 (estimate + 1) m q == .gt then estimate + 1
  else estimate + 2

/-- The grid point at or below `m · 2^q` on the grid `10^e`. -/
def gridFloor (m : Nat) (q e : Int) : Nat :=
  m * Nat.pow 2 q.toNat * Nat.pow 10 (-e).toNat /
    (Nat.pow 2 (-q).toNat * Nat.pow 10 e.toNat)

/-- The point of the grid `10^e` that reads back as `m · 2^q` and lies closest
to it, if the grid has one. -/
def onGrid (tie : Tie) (m : Nat) (q e : Int) : Option Decimal :=
  let floor := gridFloor m q e
  let low : Decimal := ⟨floor, e⟩
  let high : Decimal := ⟨floor + 1, e⟩
  match readsBack m q low, readsBack m q high with
  | true, true =>
    match compareScaled (2 * floor + 1) e (2 * m) q with
    | .gt => some low
    | .lt => some high
    | .eq =>
      match tie with
      | .up => some high
      | .even => some (if floor % 2 == 0 then low else high)
  | true, false => some low
  | false, true => some high
  | false, false => none

/-- The decimal without the zeros at its end. There are at most `limit` of
them to take away. -/
def Decimal.strip : Nat → Decimal → Decimal
  | 0, d => d
  | limit + 1, d =>
    if d.digits != 0 && d.digits % 10 == 0 then
      strip limit ⟨d.digits / 10, d.exponent + 1⟩
    else d

/-- The value itself, as a decimal. -/
def exactDecimal (m : Nat) (q : Int) : Decimal :=
  ⟨m * Nat.pow 2 q.toNat * Nat.pow 5 (-q).toNat, -(-q).toNat⟩

/-- **The shortest decimal of `m · 2^q`**, for `m ≠ 0`. Seventeen digits always
suffice, so the exact value behind the search is a formality. -/
def shortest (tie : Tie) (m : Nat) (q : Int) : Decimal :=
  let scale := decimalScale m q
  let found :=
    (List.range 17).findSome? fun (n : Nat) => onGrid tie m q (scale - 1 - n)
  (found.getD (exactDecimal m q)).strip 400

example : shortest .even 1 (-1074) = ⟨5, -324⟩ := by decide +kernel
example : shortest .even 0x1fffffffffffff 971 = ⟨17976931348623157, 292⟩ := by
  decide +kernel
example : shortest .up 0x10000000000000 (-77) = ⟨29802322387695313, -24⟩ := by
  decide +kernel

end StreamScript.Number
