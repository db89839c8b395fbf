import StreamScript.Number.Shortest

/-!
# How a number is written

`shortest` chooses the digits; where the point goes, and when an exponent is
used instead, is a matter of the format. The program writes numbers in two
ways, and each is one value of `Style`.

*As a text of the language* (`plain`) a number never has an exponent: as many
zeros are written as it takes. Nothing follows an integral number, negative
zero keeps its sign, and the values that are no numbers are `NaN`, `inf` and
`-inf`.

*Inside JSON* (`json`) a number with a fraction is written out while the
exponent of its scientific form lies between -5 and 15, an integral one then
ending in `.0`, and otherwise as `d.ddde+16` with the sign of the exponent
always given. JSON has no word for infinities; `json` is asked only for finite
numbers.
-/

namespace StreamScript.Number

/-- **The decisions a format makes** about the digits of a number. -/
structure Style where
  /-- The scientific exponents for which the number is written out. -/
  writesOut : Int → Bool
  /-- Whether an integral number that is written out ends in `.0`. -/
  marksWhole : Bool
  /-- Which of two equally close digit strings is taken. -/
  tie : Tie
  /-- The text of what is not a number. -/
  nan : String
  /-- The text of the positive infinity. -/
  infinity : String

/-- The decimal digits of a natural number. -/
def digitsOf (n : Nat) : List Char :=
  Nat.toDigits 10 n

/-- Digits with the point set behind the first `places` of them; zeros fill the
gap where the point lies outside. -/
def pointAfter (places : Int) (digits : List Char) : List Char × List Char :=
  if places ≤ 0 then (['0'], List.replicate (-places).toNat '0' ++ digits)
  else
    let n := places.toNat
    (digits.take n ++ List.replicate (n - digits.length) '0', digits.drop n)

/-- Digits in scientific form, one of them before the point. -/
def scientific (exponent : Int) (digits : List Char) : List Char :=
  let fraction := digits.drop 1
  let point := if fraction.isEmpty then [] else '.' :: fraction
  let sign := if exponent < 0 then '-' else '+'
  digits.take 1 ++ point ++ 'e' :: sign :: digitsOf exponent.natAbs

/-- The text of a positive decimal. -/
def Style.layOut (style : Style) (d : Decimal) : List Char :=
  let digits := digitsOf d.digits
  let exponent := d.exponent + digits.length - 1
  if style.writesOut exponent then
    let (whole, fraction) := pointAfter (exponent + 1) digits
    if fraction.isEmpty
        then whole ++ (if style.marksWhole then ['.', '0'] else [])
    else whole ++ '.' :: fraction
  else scientific exponent digits

/-- **The text of a number** in the given style. -/
def Style.render (style : Style) (x : Float) : List Char :=
  match Shape.ofFloat x with
  | .nan => style.nan.toList
  | .infinite negative =>
    (if negative then ['-'] else []) ++ style.infinity.toList
  | .finite negative m q =>
    (if negative then ['-'] else []) ++
      (if m == 0 then '0' :: (if style.marksWhole then ['.', '0'] else [])
      else style.layOut (shortest style.tie m q))

/-- The style of a number that becomes a text: written out always. -/
def plain : Style where
  writesOut _ := true
  marksWhole := false
  tie := .up
  nan := "NaN"
  infinity := "inf"

/-- The style of a number inside JSON. -/
def json : Style where
  writesOut e := -5 ≤ e && e < 16
  marksWhole := true
  tie := .even
  nan := "null"
  infinity := "null"

/-- The text of a number in the language itself. -/
def toText (x : Float) : String :=
  String.ofList (plain.render x)

/-- The text of an integer. -/
def intText (n : Int) : List Char :=
  if n < 0 then '-' :: digitsOf n.natAbs else digitsOf n.natAbs

example : toText 1e21 = "1000000000000000000000" ∧ toText 1e-7 = "0.0000001"
    ∧ toText (-0.0) = "-0" ∧ toText 2.5 = "2.5" := by decide +kernel

example : json.render 1e16 = "1e+16".toList ∧
    json.render 1.5e-7 = "1.5e-7".toList ∧ json.render 1e-5 = "0.00001".toList
    ∧ json.render 9007199254740992 = "9007199254740992.0".toList := by
    decide +kernel

end StreamScript.Number
