import StreamScript.Text.CharSet

/-!
# Sets of characters as sequences of bytes

Written in UTF-8, the characters of a set are sequences of one to four bytes. A
range of characters whose encodings have the same length and differ as freely
as their bytes allow is one sequence of ranges of bytes; any other range is cut
into such pieces, from the front. `sequencesOf` lists them in ascending order.
-/

namespace StreamScript.Regex

open Text (CharSet)

/-- **A range of bytes**, both ends included. -/
structure ByteRange where
  first : Nat
  last : Nat
deriving DecidableEq, Repr

/-- The last code points that one, two and three bytes can write. -/
def encodingEnds : List Nat := [0x7F, 0x7FF, 0xFFFF]

/-- How many characters the last byte, the last two and the last three tell
apart. -/
def blockSizes : List Nat := [0x40, 0x1000, 0x40000]

/-- The last character of the first piece of a range, if the range has to be
cut: where the encoding grows longer, or where a block ends that the range
fills in part. -/
def cutAfter? (first last : Nat) : Option Nat :=
  match encodingEnds.find? fun e => first ≤ e && e < last with
  | some e => some e
  | none =>
    if last < 0x80 then none
    else blockSizes.findSome? fun size =>
      if first / size = last / size then none
      else if first % size ≠ 0 then some (first / size * size + size - 1)
      else if last % size ≠ size - 1 then some (last / size * size - 1)
      else none

/-- **The pieces of a range.** -/
def pieces (first last : Nat) : List (Nat × Nat) :=
  match cutAfter? first last with
  | some cut =>
    if first ≤ cut ∧ cut < last then pieces first cut ++ pieces (cut + 1) last
    else [(first, last)]
  | none => [(first, last)]
termination_by last - first

/-- The bytes of a character. -/
def bytesOf (c : Char) : List Nat :=
  (String.utf8EncodeChar c).map UInt8.toNat

/-- The sequence of a piece: its ends, byte by byte. -/
def sequenceOf (first last : Nat) : List ByteRange :=
  List.zipWith ByteRange.mk (bytesOf (.ofNat first)) (bytesOf (.ofNat last))

/-- **The sequences of a set**, in ascending order. -/
def sequencesOf (s : CharSet) : List (List ByteRange) :=
  s.ranges.flatMap fun (first, last) =>
    (pieces first last).map fun (first, last) => sequenceOf first last

example : sequencesOf (.range 0x41 0x7FF)
    = [[⟨0x41, 0x7F⟩], [⟨0xC2, 0xDF⟩, ⟨0x80, 0xBF⟩]] := by cbv

end StreamScript.Regex
