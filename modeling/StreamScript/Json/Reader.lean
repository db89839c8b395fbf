import StreamScript.Json.Basic
import StreamScript.Bindings
import StreamScript.Number.Reader
import StreamScript.Text.CharSet

/-!
# Reading JSON

The reader is strict: the grammar of RFC 8259, nothing more. Blanks are space,
tab, line feed and carriage return; numbers have no leading zeros and must lie
in the range of floats; strings hold no raw control characters, and escapes of
surrogates come in pairs.

Containers nest at most `nestingLimit` deep. The limit is what the recursion
runs on: `value` is given the number of levels still allowed and hands one less
to what stands inside a container, so reading ends without any further
argument. A container is read element by element, with a bound on their number
that the length of the text provides.
-/

namespace StreamScript.Json

/-- How many containers may stand inside one another. -/
def nestingLimit : Nat := 127

/-- A reader takes a value off the front of a text. -/
abbrev Reader (α : Type) : Type := List Char → Option (α × List Char)

/-- The four blanks of JSON. -/
def isGap (c : Char) : Bool :=
  c == ' ' || c == '\t' || c == '\n' || c == '\r'

/-- Skips blanks. -/
def skipGap (cs : List Char) : List Char :=
  cs.dropWhile isGap

/-- The number that four hexadecimal digits spell. -/
def fourHex (a b c d : Char) : Option Nat :=
  match Text.hexDigit? a, Text.hexDigit? b, Text.hexDigit? c,
      Text.hexDigit? d with
  | some a, some b, some c, some d => some (((a * 16 + b) * 16 + c) * 16 + d)
  | _, _, _, _ => none

/-- The second half of a surrogate pair whose first half is `high`. -/
def lowSurrogate (high : Nat) : Reader Char
  | '\\' :: 'u' :: a :: b :: c :: d :: rest =>
    match fourHex a b c d with
    | some low =>
      if 0xDC00 ≤ low ∧ low ≤ 0xDFFF then
        some (Char.ofNat (0x10000 + (high - 0xD800) * 0x400 + (low - 0xDC00)),
          rest)
      else none
    | none => none
  | _ => none

/-- What follows a backslash. -/
def escaped : Reader Char
  | '"' :: rest => some ('"', rest)
  | '\\' :: rest => some ('\\', rest)
  | '/' :: rest => some ('/', rest)
  | 'b' :: rest => some ('\x08', rest)
  | 'f' :: rest => some ('\x0c', rest)
  | 'n' :: rest => some ('\n', rest)
  | 'r' :: rest => some ('\r', rest)
  | 't' :: rest => some ('\t', rest)
  | 'u' :: a :: b :: c :: d :: rest =>
    match fourHex a b c d with
    | some n =>
      if 0xD800 ≤ n ∧ n ≤ 0xDBFF then lowSurrogate n rest
      else if 0xDC00 ≤ n ∧ n ≤ 0xDFFF then none
      else some (Char.ofNat n, rest)
    | none => none
  | _ => none

theorem length_lt_of_lowSurrogate {high : Nat} {cs rest : List Char} {c : Char}
    (h : lowSurrogate high cs = some (c, rest)) : rest.length < cs.length := by
  unfold lowSurrogate at h
  split at h
  · split at h
    · split at h
      · simp only [Option.some.injEq, Prod.mk.injEq] at h
        simp only [← h.2, List.length_cons]
        omega
      · simp at h
    · simp at h
  · simp at h

/-- An escape leaves less of the text. -/
theorem length_lt_of_escaped {cs rest : List Char} {c : Char}
    (h : escaped cs = some (c, rest)) : rest.length < cs.length := by
  unfold escaped at h
  split at h
  case h_9 =>
    split at h
    · split at h
      · have := length_lt_of_lowSurrogate h
        simp only [List.length_cons]
        omega
      · split at h
        · simp at h
        · simp only [Option.some.injEq, Prod.mk.injEq] at h
          simp only [← h.2, List.length_cons]
          omega
    · simp at h
  case h_10 => simp at h
  all_goals
    simp only [Option.some.injEq, Prod.mk.injEq] at h
    simp only [← h.2, List.length_cons]
    omega

/-- The inside of a string and its closing quote; `done` is what has been read,
in reverse. -/
def stringBody (done : List Char) (cs : List Char) :
    Option (String × List Char) :=
  match cs with
  | [] => none
  | c :: rest =>
    if c = '"' then some (String.ofList done.reverse, rest)
    else if c = '\\' then
      match _h : escaped rest with
      | some (e, rest') => stringBody (e :: done) rest'
      | none => none
    else if c.toNat < 0x20 then none
    else stringBody (c :: done) rest
termination_by cs.length
decreasing_by
  · have := length_lt_of_escaped _h
    simp only [List.length_cons]
    omega
  · simp

/-- A string in quotes. -/
def stringText : Reader String
  | '"' :: rest => stringBody [] rest
  | _ => none

/-- The digits of the whole part of a number: a single zero, or digits that do
not begin with one. -/
def wholeDigits (cs : List Char) : Option (List Char × List Char) :=
  match cs with
  | '0' :: rest =>
    match rest with
    | c :: _ => if Number.isDigit c then none else some (['0'], rest)
    | [] => some (['0'], rest)
  | _ =>
    let digits := cs.takeWhile Number.isDigit
    if digits.isEmpty then none else some (digits, cs.dropWhile Number.isDigit)

/-- A fraction: nothing, or a point and at least one digit. -/
def fractionDigits : Reader (List Char)
  | '.' :: rest =>
    let digits := rest.takeWhile Number.isDigit
    if digits.isEmpty then none
        else some (digits, rest.dropWhile Number.isDigit)
  | rest => some ([], rest)

/-- An exponent: `none` if there is none, else its value. -/
def exponentPart : Reader (Option Int)
  | c :: rest =>
    if c == 'e' || c == 'E' then
      let (negative, rest) := Number.splitSign rest
      let digits := rest.takeWhile Number.isDigit
      if digits.isEmpty then none
      else
        some (some (Number.signed negative (Number.natOfDigits digits)),
          rest.dropWhile Number.isDigit)
    else some (none, c :: rest)
  | [] => some (none, [])

/-- The value of a number from its parts. Without fraction and exponent it is an
integer, except for the negative zero.

Any other number is the float nearest to it. A reader that scales the digits by
a power of ten in floats, and so rounds twice, may be off by one in the last
place: that is what the reader followed here does, and `3e23` is such a number.
Here the nearest float is taken. -/
def numberValue (negative : Bool) (whole fraction : List Char)
    (exponent : Option Int) :
    Option Json :=
  let n := Number.natOfDigits whole
  if fraction.isEmpty && exponent.isNone && !(negative && n == 0) then
    let value := Number.signed negative n
    if (Float.ofInt value).isFinite then some (.integer value) else none
  else
    let digits := Number.natOfDigits (whole ++ fraction)
    let x := Number.Literal.value
      (.decimal negative digits (exponent.getD 0 - fraction.length))
    if x.isFinite then some (.decimal x) else none

/-- A number. -/
def number (cs : List Char) : Option (Json × List Char) := do
  let (negative, cs) :=
    match cs with
    | '-' :: rest => (true, rest)
    | _ => (false, cs)
  let (whole, cs) ← wholeDigits cs
  let (fraction, cs) ← fractionDigits cs
  let (exponent, cs) ← exponentPart cs
  let value ← numberValue negative whole fraction exponent
  return (value, cs)

/-- Elements separated by commas up to `close`, of which at least one and at
most `most` may come. What has been read is kept in reverse. -/
def elements {α : Type} (item : Reader α) (close : Char) :
    Nat → List α → Reader (List α)
  | 0, _, _ => none
  | most + 1, done, cs =>
    match item cs with
    | none => none
    | some (x, rest) =>
      match skipGap rest with
      | [] => none
      | c :: rest =>
        if c = close then some ((x :: done).reverse, rest)
        else if c = ',' then elements item close most (x :: done) rest
        else none

/-- Elements between two brackets, the first of which has been read. -/
def bracketed {α : Type} (item : Reader α) (close : Char) (most : Nat) :
    Reader (List α) :=
  fun cs =>
    match skipGap cs with
    | c :: rest =>
      if c = close then some ([], rest)
          else elements item close most [] (c :: rest)
    | [] => none

/-- A member of an object. -/
def member (value : Reader Json) : Reader (String × Json) := fun cs =>
  match stringText (skipGap cs) with
  | some (name, rest) =>
    match skipGap rest with
    | ':' :: rest => (value rest).map fun (v, rest) => ((name, v), rest)
    | _ => none
  | none => none

/-- **A value**, inside at most `levels` further containers. No container holds
more than `most` elements. -/
def value (most levels : Nat) : Reader Json := fun cs =>
  match skipGap cs with
  | 'n' :: 'u' :: 'l' :: 'l' :: rest => some (.null, rest)
  | 't' :: 'r' :: 'u' :: 'e' :: rest => some (.bool true, rest)
  | 'f' :: 'a' :: 'l' :: 's' :: 'e' :: rest => some (.bool false, rest)
  | '"' :: rest => (stringBody [] rest).map fun (s, rest) => (.string s, rest)
  | '[' :: rest =>
    match levels with
    | 0 => none
    | inner + 1 =>
      (bracketed (value most inner) ']' most rest).map fun (items, rest) =>
        (.array items, rest)
  | '\x7b' :: rest =>
    match levels with
    | 0 => none
    | inner + 1 =>
      (bracketed (member (value most inner)) '\x7d' most rest).map
        fun (members, rest) =>
        (.object (Bindings.setAll [] members), rest)
  | rest => number rest

/-- **Reads a JSON text**, which may have blanks around the value and nothing
else. An element takes at least one character, so there are no more of them
than characters. -/
def ofChars? (cs : List Char) : Option Json :=
  match value cs.length nestingLimit cs with
  | some (v, rest) => if (skipGap rest).isEmpty then some v else none
  | none => none

end StreamScript.Json
