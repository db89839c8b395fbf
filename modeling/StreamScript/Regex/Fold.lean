import StreamScript.Regex.FoldTable

/-!
# Sets in any case

Two characters match without regard to case when they fold alike. A set in any
case therefore holds, with each of its characters, all those that fold to the
same one: `foldedBy` first finds what the members fold to, and then takes
everything that folds there. Where classes know ASCII only, the letters of ASCII
fold to one another and nothing else does.
-/

namespace StreamScript.Regex

open Text (CharSet)

/-- The characters that folding moves, each with its image. -/
def foldPairs : List (Nat × Nat) :=
  foldRuns.flatMap (·.pairs)

/-- The letters of ASCII among them. -/
def asciiFoldPairs : List (Nat × Nat) :=
  (List.range 26).map fun i => (0x41 + i, 0x61 + i)

/-- **A set in any case**, under a folding that moves the given characters. -/
def foldedBy (pairs : List (Nat × Nat)) (s : CharSet) : CharSet :=
  let images := pairs.filterMap fun (c, image) =>
    if s.holds c || s.holds image then some image else none
  let reached := CharSet.ofCodes images
  let alike := pairs.filter fun (_, image) => reached.holds image
  s.union (.ofCodes (alike.flatMap fun (c, image) => [c, image]))

/-- A set in any case, among all characters or those of ASCII. -/
def folded (ascii : Bool) (s : CharSet) : CharSet :=
  foldedBy (if ascii then asciiFoldPairs else foldPairs) s

example : folded true (.single 'k') = .ofCodes [0x4B, 0x6B] := by cbv

end StreamScript.Regex
