/-!
# Numbers read exactly

The numbers of the language are binary64 floats, and their sums, products and
quotients are core's. What the language asks beyond that – which integer a
number truncates to, how many steps a range takes, a remainder – is answered
exactly: a finite number *is* `± m · 2^q` with natural `m`, and on that reading
each question is one about integers.

`Shape.ofFloat` takes the reading off the bits and `ofScaled` goes back,
rounding to nearest where the value does not fit. Everything else in this
module is a function of the reading.

Two conversions differ only in what they do with values that have no integer
of their own. `toInt64` saturates at the ends of the signed 64-bit range and
sends what is not a number to 0; `ceiling` refuses anything that is not finite.
-/

namespace StreamScript.Number

/-- **What a float stands for.** A finite value is `± mantissa · 2^exponent`. -/
inductive Shape where
  /-- Not a number. -/
  | nan
  /-- One of the two infinities. -/
  | infinite (negative : Bool)
  /-- A finite value; zero has mantissa 0 and keeps its sign. -/
  | finite (negative : Bool) (mantissa : Nat) (exponent : Int)
deriving DecidableEq, Repr

/-- The reading of a float, taken from its bits. -/
def Shape.ofFloat (x : Float) : Shape :=
  let bits := x.toBits.toNat
  let negative := bits / 0x8000000000000000 == 1
  let biased : Nat := bits / 0x10000000000000 % 0x800
  let fraction : Nat := bits % 0x10000000000000
  if biased == 2047 then
    if fraction == 0 then .infinite negative else .nan
  else if biased == 0 then .finite negative fraction (-1074)
  else .finite negative (0x10000000000000 + fraction) ((biased : Int) - 1075)

/-- The float nearest to `± mantissa · 2^exponent`, ties to the even
mantissa. -/
def ofScaled (negative : Bool) (mantissa : Nat) (exponent : Int) : Float :=
  let sign : Float.Model.UnpackedFloat.Sign :=
    if negative then .negative else .positive
  if mantissa == 0 then (if negative then -0.0 else 0.0)
  else .ofModel (.pack (.round .binary64 sign mantissa exponent))

/-- `mantissa · 2^exponent`, rounded toward zero. -/
def wholePart (mantissa : Nat) (exponent : Int) : Nat :=
  if 0 ≤ exponent then mantissa * Nat.pow 2 exponent.toNat
  else mantissa / Nat.pow 2 (-exponent).toNat

/-- `mantissa · 2^exponent`, rounded up. -/
def wholeAbove (mantissa : Nat) (exponent : Int) : Nat :=
  if 0 ≤ exponent then mantissa * Nat.pow 2 exponent.toNat
  else (mantissa + (Nat.pow 2 (-exponent).toNat - 1)) / Nat.pow 2
    (-exponent).toNat

/-- An integer from its sign and its absolute value. -/
def signed (negative : Bool) (n : Nat) : Int :=
  if negative then -(n : Int) else n

/-- The least signed 64-bit integer. -/
def leastInt64 : Int := -9223372036854775808

/-- The greatest signed 64-bit integer. -/
def greatestInt64 : Int := 9223372036854775807

/-- **The 64-bit integer of a number**: truncated toward zero, saturating at
both ends; what is not a number gives 0. -/
def toInt64 (x : Float) : Int :=
  match Shape.ofFloat x with
  | .nan => 0
  | .infinite negative => if negative then leastInt64 else greatestInt64
  | .finite negative m q =>
    max leastInt64 (min greatestInt64 (signed negative (wholePart m q)))

/-- Saturation keeps every answer in the signed 64-bit range. -/
theorem toInt64_mem (x : Float) :
    leastInt64 ≤ toInt64 x ∧ toInt64 x ≤ greatestInt64 := by
  simp only [toInt64, leastInt64, greatestInt64]
  split
  · omega
  · split <;> omega
  · omega

/-- The least integer that is not below the number; only finite numbers have
one. -/
def ceiling (x : Float) : Option Int :=
  match Shape.ofFloat x with
  | .finite false m q => some (wholeAbove m q)
  | .finite true m q => some (-(wholePart m q : Int))
  | _ => none

/-- The integer that the number is, if it is one. Both zeros are 0. -/
def toInt? (x : Float) : Option Int :=
  match Shape.ofFloat x with
  | .finite negative m q =>
    if wholePart m q = wholeAbove m q
        then some (signed negative (wholePart m q)) else none
  | _ => none

/-- Only saturation can part the two: an integer that the number is, if any, is
what it truncates to. -/
theorem toInt64_of_toInt? {x : Float} {n : Int} (h : toInt? x = some n) :
    toInt64 x = max leastInt64 (min greatestInt64 n) := by
  unfold toInt? at h
  split at h
  · next hshape =>
    split at h
    · obtain rfl := Option.some.inj h
      rw [toInt64, hshape]
    · cases h
  · cases h

/-- **The remainder of the division truncated toward zero.** It is exact,
takes the sign of the dividend, and is not a number where there is no such
division. -/
def remainder (x y : Float) : Float :=
  match Shape.ofFloat x, Shape.ofFloat y with
  | .finite negative m q, .finite _ n r =>
    if n == 0 then 0.0 / 0.0
    else
      let e := min q r
      ofScaled negative
        (m * Nat.pow 2 (q - e).toNat % (n * Nat.pow 2 (r - e).toNat)) e
  | .finite _ _ _, .infinite _ => x
  | _, _ => 0.0 / 0.0

example : remainder 7.5 (-2) = 1.5 ∧ remainder (-7.5) 2 = -1.5 := by
  decide +kernel
example : toInt64 (-2.9) = -2 ∧ toInt64 1e300 = greatestInt64 := by
  decide +kernel
example : ceiling 2.1 = some 3 ∧ ceiling (-2.9) = some (-2) := by decide +kernel

end StreamScript.Number
