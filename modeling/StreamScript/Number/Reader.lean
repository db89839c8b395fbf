import StreamScript.Number.Binary

/-!
# Reading numbers

The texts that read as a number are those of a small grammar,

    number   = [sign] ( "inf" | "infinity" | "nan" | decimal )
    decimal  = digits [ "." [digits] ] [exponent] | "." digits [exponent]
    exponent = ("e" | "E") [sign] digits

with the three words in any mixture of upper and lower case. `Literal` is what
the grammar leaves of a text: the sign and the digits, or one of the words.
`Literal.value` is the float nearest to it, so that reading is a function of
two parts, and which texts are accepted can be studied without any arithmetic.
-/

namespace StreamScript.Number

/-- A number as it is spelled. -/
inductive Literal where
  /-- `digits · 10^exponent`. -/
  | decimal (negative : Bool) (digits : Nat) (exponent : Int)
  | infinity (negative : Bool)
  | nan
deriving DecidableEq, Repr

/-- Whether a character is one of the ten decimal digits. -/
def isDigit (c : Char) : Bool :=
  '0' ≤ c && c ≤ '9'

/-- The natural number written by a list of decimal digits. -/
def natOfDigits (digits : List Char) : Nat :=
  digits.foldl (fun n c => 10 * n + (c.toNat - '0'.toNat)) 0

/-- A sign, if there is one, and what follows it. -/
def splitSign : List Char → Bool × List Char
  | '-' :: rest => (true, rest)
  | '+' :: rest => (false, rest)
  | rest => (false, rest)

/-- The exponent that a decimal ends with: 0 if nothing is left, and nothing if
what is left is no exponent. -/
def exponentOf? : List Char → Option Int
  | [] => some 0
  | c :: rest =>
    if c == 'e' || c == 'E' then
      let (negative, digits) := splitSign rest
      if digits.isEmpty || !digits.all isDigit then none
      else some (signed negative (natOfDigits digits))
    else none

/-- The digits and the exponent of an unsigned decimal. -/
def decimalOf? (cs : List Char) : Option (Nat × Int) :=
  let whole := cs.takeWhile isDigit
  let rest := cs.dropWhile isDigit
  let (fraction, rest) :=
    match rest with
    | '.' :: rest => (rest.takeWhile isDigit, rest.dropWhile isDigit)
    | rest => ([], rest)
  if whole.isEmpty && fraction.isEmpty then none
  else
    (exponentOf? rest).map fun e =>
      (natOfDigits (whole ++ fraction), e - fraction.length)

/-- **The spelling of a number**, if the text is one. -/
def Literal.ofChars? (cs : List Char) : Option Literal :=
  let (negative, body) := splitSign cs
  let word := body.map Char.toLower
  if word == "inf".toList || word == "infinity".toList
      then some (.infinity negative)
  else if word == "nan".toList then some .nan
  else (decimalOf? body).map fun (digits, e) => .decimal negative digits e

/-- The float nearest to a spelled number. -/
def Literal.value : Literal → Float
  | .decimal negative digits e =>
    let x := Float.ofScientific digits (e < 0) e.natAbs
    if negative then -x else x
  | .infinity negative => if negative then -1.0 / 0.0 else 1.0 / 0.0
  | .nan => 0.0 / 0.0

/-- **Reads a number.** -/
def ofChars? (cs : List Char) : Option Float :=
  (Literal.ofChars? cs).map Literal.value

example : ofChars? "2.5e1".toList = some 25 ∧ ofChars? ".5".toList = some 0.5
    ∧ ofChars? "1e".toList = none ∧ ofChars? ".".toList = none := by
    decide +kernel

end StreamScript.Number
