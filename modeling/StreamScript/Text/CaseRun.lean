import StreamScript.Text.CharSet

/-!
# Mappings of characters

A mapping between single characters is a list of runs that move together: so
many characters, at the same distance from one another, go to as many others at
that distance (`CaseRun.image?`). The few characters that go to several at once
are listed one by one.
-/

namespace StreamScript.Text

/-- A run of characters, `count` of them `step` apart from `first` on, that move
together; the first of them goes to `target`. -/
structure CaseRun where
  first : Nat
  count : Nat
  step : Nat
  target : Nat
deriving DecidableEq, Repr

/-- Reads runs, each written as the gap since the run before it, its length, its
step and its target. -/
def CaseRun.ofNumbers (start : Nat) : List Nat → List CaseRun
  | gap :: count :: step :: target :: rest =>
    ⟨start + gap, count, step, target⟩ :: ofNumbers (start + gap) rest
  | _ => []

/-- The runs of a table. -/
def CaseRun.ofLines (lines : List String) : List CaseRun :=
  ofNumbers 0 (numbersOf lines)

/-- The image of a code point under one run. -/
def CaseRun.image? (run : CaseRun) (n : Nat) : Option Nat :=
  if run.first ≤ n ∧ n < run.first + run.count * run.step
      ∧ (n - run.first) % run.step = 0 then
    some (run.target + (n - run.first))
  else none

/-- The code points of a run, each with its image. -/
def CaseRun.pairs (run : CaseRun) : List (Nat × Nat) :=
  (List.range run.count).map fun i =>
    (run.first + i * run.step, run.target + i * run.step)

/-- The image of a character under a mapping, the character itself if no run
moves it. -/
def mapChar (runs : List CaseRun) (c : Char) : Char :=
  match runs.findSome? (·.image? c.toNat) with
  | some n => Char.ofNat n
  | none => c

/-- Reads characters with an image of several characters: the character, the
length of the image, the image. -/
def expansionsOfNumbers : List Nat → List (Char × List Char)
  | c :: 2 :: a :: b :: rest =>
    (Char.ofNat c, [Char.ofNat a, Char.ofNat b]) :: expansionsOfNumbers rest
  | c :: 3 :: a :: b :: d :: rest =>
    (Char.ofNat c, [Char.ofNat a, Char.ofNat b, Char.ofNat d])
      :: expansionsOfNumbers rest
  | _ => []

/-- The entries of a table of expansions. -/
def expansionsOf (lines : List String) : List (Char × List Char) :=
  expansionsOfNumbers (numbersOf lines)

end StreamScript.Text
