/-!
# Sets of characters

The properties of Unicode are large and irregular, and the tables that hold
them are kept small by listing changes only. A set of characters is the
ascending list of the code points at which membership switches on or off, so a
character belongs to it when an odd number of those lie at or below it
(`CharSet.contains`).

Sets are combined by a merge of their switches: `CharSet.combine` walks up both
lists and keeps a switch wherever the result changes. Union, intersection,
difference and symmetric difference are its four uses. No set holds a surrogate,
since those are no characters, and the complement is taken among the others.

Tables are written down as lines of hexadecimal numbers, which `numbersOf`
reads.
-/

namespace StreamScript.Text

/-- The value of a hexadecimal digit. -/
def hexDigit? (c : Char) : Option Nat :=
  if '0' ≤ c && c ≤ '9' then some (c.toNat - '0'.toNat)
  else if 'a' ≤ c && c ≤ 'f' then some (c.toNat - 'a'.toNat + 10)
  else if 'A' ≤ c && c ≤ 'F' then some (c.toNat - 'A'.toNat + 10)
  else none

/-- Reads hexadecimal numbers separated by blanks, starting inside the number
`current`. -/
def numbersFrom (current : Nat) : List Char → List Nat
  | [] => [current]
  | c :: rest =>
    match hexDigit? c with
    | some d => numbersFrom (16 * current + d) rest
    | none => current :: numbersFrom 0 rest

/-- The hexadecimal numbers of some lines, separated by single blanks. -/
def numbersOf (lines : List String) : List Nat :=
  lines.flatMap fun line => numbersFrom 0 line.toList

/-- **A set of characters**, by the ascending code points at which membership
changes. -/
structure CharSet where
  switches : Array Nat
deriving DecidableEq, Repr

/-- The running totals of a list of gaps. -/
def totals (start : Nat) : List Nat → List Nat
  | [] => []
  | gap :: gaps => (start + gap) :: totals (start + gap) gaps

/-- How many of the ascending entries between `low` and `high` are at most `n`,
counted from the start of the array. -/
def countUpTo (switches : Array Nat) (n low high : Nat) : Nat :=
  if low < high then
    let middle := (low + high) / 2
    if (switches[middle]?.getD 0) ≤ n
        then countUpTo switches n (middle + 1) high
    else countUpTo switches n low middle
  else low
termination_by high - low

/-- The switches of what `keep` makes of two sets, from a place on where
membership in them is `inA` and `inB`. -/
def mergeFrom (keep : Bool → Bool → Bool) (inA inB : Bool) : List Nat →
    List Nat → List Nat
  | [], [] => []
  | a :: as, [] => step a (!inA) inB (mergeFrom keep (!inA) inB as [])
  | [], b :: bs => step b inA (!inB) (mergeFrom keep inA (!inB) [] bs)
  | a :: as, b :: bs =>
    if a < b then step a (!inA) inB (mergeFrom keep (!inA) inB as (b :: bs))
    else if b < a
      then step b inA (!inB) (mergeFrom keep inA (!inB) (a :: as) bs)
    else step a (!inA) (!inB) (mergeFrom keep (!inA) (!inB) as bs)
termination_by as bs => as.length + bs.length
where
  /-- A switch at `n`, if the result changes there. -/
  step (n : Nat) (nextA nextB : Bool) (rest : List Nat) : List Nat :=
    if keep inA inB == keep nextA nextB then rest else n :: rest

/-- Puts a code point in front of the switches of greater ones. -/
def putCode (n : Nat) : List Nat → List Nat
  | [] => [n, n + 1]
  | m :: rest =>
    if m = n then m :: rest
    else if m = n + 1 then n :: rest
    else n :: (n + 1) :: m :: rest

namespace CharSet

/-! ## Membership -/

/-- Whether a code point belongs to a set: an odd number of switches lies at or
below it. -/
def holds (s : CharSet) (n : Nat) : Bool :=
  countUpTo s.switches n 0 s.switches.size % 2 == 1

/-- **Membership.** -/
def contains (s : CharSet) (c : Char) : Bool :=
  s.holds c.toNat

/-! ## Sets written down -/

/-- The set without any character. -/
def empty : CharSet := ⟨#[]⟩

/-- All characters: the code points without the surrogates. -/
def all : CharSet := ⟨#[0, 0xD800, 0xE000, 0x110000]⟩

/-- The set whose switches lie at the given gaps from one another. -/
def ofGaps (lines : List String) : CharSet :=
  ⟨(totals 0 (numbersOf lines)).toArray⟩

/-- The set of some ranges, both ends included, that ascend without touching one
another. -/
def ofRanges (ranges : List (Nat × Nat)) : CharSet :=
  ⟨(ranges.flatMap fun (first, last) => [first, last + 1]).toArray⟩

/-- The set of some code points. -/
def ofCodes (codes : List Nat) : CharSet :=
  ⟨(codes.mergeSort.foldr putCode []).toArray⟩

/-- The set of one character. -/
def single (c : Char) : CharSet :=
  ofRanges [(c.toNat, c.toNat)]

/-! ## Operations -/

/-- What `keep` makes of membership in two sets. It must not hold where both
memberships are false. -/
def combine (keep : Bool → Bool → Bool) (a b : CharSet) : CharSet :=
  ⟨(mergeFrom keep false false a.switches.toList b.switches.toList).toArray⟩

/-- The characters of either set. -/
def union : CharSet → CharSet → CharSet :=
  combine fun a b => a || b

/-- The characters of both sets. -/
def inter : CharSet → CharSet → CharSet :=
  combine fun a b => a && b

/-- The characters of the first set that are not in the second. -/
def diff : CharSet → CharSet → CharSet :=
  combine fun a b => a && !b

/-- The characters of one set that are not in the other. -/
def symm : CharSet → CharSet → CharSet :=
  combine fun a b => a != b

/-- All characters that are not in the set. -/
def compl (s : CharSet) : CharSet :=
  all.diff s

/-- The set itself or what it leaves of all characters. -/
def negatedIf (negated : Bool) (s : CharSet) : CharSet :=
  if negated then s.compl else s

/-- The union of several sets. -/
def unionAll (sets : List CharSet) : CharSet :=
  sets.foldl union empty

/-- The characters between two ends, both included. -/
def range (first last : Nat) : CharSet :=
  (ofRanges [(first, last)]).inter all

/-! ## Ranges -/

/-- The ranges between switches that come in pairs, both ends included. -/
def pairUp : List Nat → List (Nat × Nat)
  | on :: off :: rest => (on, off - 1) :: pairUp rest
  | _ => []

/-- The ranges of a set, in ascending order. -/
def ranges (s : CharSet) : List (Nat × Nat) :=
  pairUp s.switches.toList

/-- The character of a set that has only one. -/
def single? (s : CharSet) : Option Char :=
  match s.ranges with
  | [(first, last)] => if first = last then some (Char.ofNat first) else none
  | _ => none

/-- Whether all characters of a set are in ASCII. -/
def isAscii (s : CharSet) : Bool :=
  s.ranges.all fun (_, last) => last < 0x80

end CharSet

example : (CharSet.ofGaps ["41 1a 6 1a"]).contains 'z' = true
    ∧ (CharSet.ofGaps ["41 1a 6 1a"]).contains '[' = false := by decide +kernel

example : (CharSet.single 'a').union (.single 'b') = .range 0x61 0x62
    ∧ (CharSet.range 0x61 0x7A).diff (.single 'b')
    = .ofRanges [(0x61, 0x61), (0x63, 0x7A)] ∧
    CharSet.ofCodes [0x63, 0x61, 0x62, 0x61] = .range 0x61 0x63 := by cbv

end StreamScript.Text
