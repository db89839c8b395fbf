import StreamScript.Regex.Reader
import StreamScript.Regex.Search

/-!
# Matching and replacing

`Regex` is a pattern that has been read, ready to be searched for. The matches
of a text are found from left to right and do not overlap. Where a match has
ended no empty one begins: the search goes on a character further.

What stands in the place of a match is written as a template. A `$` begins a
reference to a group by its number or name, with braces around it or without;
without them the longest run of letters, digits and underscores counts. `$$` is
one `$`, and a `$` that begins no reference stays. Groups that do not exist or
have no place in the match are empty.
-/

namespace StreamScript

/-- **A regular expression**, ready to be searched for. -/
structure Regex where
  automaton : Regex.Automaton
  /-- The names of the groups, in order. -/
  names : List (Option String)

namespace Regex

/-- **Reads a pattern**, if it is one. -/
def ofPattern? (pattern : String) : Option Regex :=
  (Node.ofPattern? pattern.toList).map fun (node, names) =>
    ⟨node.automaton, names⟩

/-- **Whether a text contains a match.** -/
def isMatch (re : Regex) (cs : List Char) : Bool :=
  (re.automaton.search (.first cs)).isSome

/-- The place that a slot remembers. -/
def Slots.at? (slots : Slots) (slot : Nat) : Option Nat :=
  slots[slot]?.join

/-- The beginning and the end of a group; the whole match is group 0. -/
def Slots.group? (slots : Slots) (n : Nat) : Option (Nat × Nat) := do
  let first ← slots.at? (2 * n)
  let last ← slots.at? (2 * n + 1)
  return (first, last)

/-- The next match behind the last one, which ended at `lastEnd`. An empty
match there is passed over. -/
def nextMatch? (re : Regex) (lastEnd : Option Nat) (place : Place) :
    Option Slots := do
  let slots ← re.automaton.search place
  let (first, last) ← slots.group? 0
  if last ≤ first ∧ some last = lastEnd then
    if place.rest.isEmpty then none else re.automaton.search (place.skip 1)
  else slots

/-- The matches from a place on, in order. Every one ends behind the one
before, so there are no more than places in the text. -/
def matchesFrom (re : Regex) : Nat → Option Nat → Place → List Slots
  | 0, _, _ => []
  | fuel + 1, lastEnd, place =>
    match nextMatch? re lastEnd place with
    | none => []
    | some slots =>
      match slots.group? 0 with
      | none => []
      | some (_, last) =>
        slots :: matchesFrom re fuel (some last) (place.skip (last - place.pos))

/-- **The matches of a text.** -/
def matchesOf (re : Regex) (cs : List Char) : List Slots :=
  matchesFrom re (cs.length + 1) none (.first cs)

/-! ## Templates -/

/-- **A part of a template.** -/
inductive Part where
  | char (c : Char)
  | number (n : Nat)
  | name (s : String)
deriving DecidableEq, Repr

/-- The part that a reference is: a number if it reads as one, with or without
a plus sign, else a name. -/
def Part.ofReference (reference : List Char) : Part :=
  let digits := if reference.head? == some '+' then reference.tail
    else reference
  if digits.all Char.isDigit && !digits.isEmpty then
    .number (digits.foldl (fun n c => 10 * n + (c.toNat - '0'.toNat)) 0)
  else .name (String.ofList reference)

/-- Whether a character may stand in a reference without braces. -/
def isReferenceChar (c : Char) : Bool :=
  c.isAlphanum || c == '_'

/-- Reads the reference behind a `$`, and what is left. -/
def reference? (cs : List Char) : Option (Part × List Char) :=
  match cs with
  | '{' :: rest =>
    (Text.breakOn ['}'] rest).map fun (inside, rest) =>
      (.ofReference inside, rest)
  | _ =>
    let (name, rest) := cs.span isReferenceChar
    if name.isEmpty then none else some (.ofReference name, rest)

/-- **The parts of a template.** -/
def partsOfTemplate (cs : List Char) : List Part :=
  match cs with
  | [] => []
  | '$' :: '$' :: rest => .char '$' :: partsOfTemplate rest
  | '$' :: rest =>
    match reference? rest with
    | some (part, left) =>
      if left.length ≤ rest.length then part :: partsOfTemplate left else []
    | none => .char '$' :: partsOfTemplate rest
  | c :: rest => .char c :: partsOfTemplate rest
termination_by cs.length

/-- The number of the group of a name. -/
def numberOf? (re : Regex) (name : String) : Option Nat :=
  (re.names.findIdx? (· == some name)).map (· + 1)

/-- What a part of a template stands for in a match. -/
def fill (re : Regex) (text : Array Char) (slots : Slots) : Part → List Char
  | .char c => [c]
  | .number n => group n
  | .name s => ((numberOf? re s).map group).getD []
where
  /-- The text of a group. -/
  group (n : Nat) : List Char :=
    match slots.group? n with
    | some (first, last) => (text.extract first last).toList
    | none => []

/-- **Replaces every match** by what a template makes of it. -/
def replaceAll (re : Regex) (template cs : List Char) : List Char :=
  let parts := partsOfTemplate template
  let text := cs.toArray
  let put := fun (done, from') slots =>
    match Slots.group? slots 0 with
    | some (first, last) =>
      (done ++ (text.extract from' first)
        ++ (parts.flatMap (fill re text slots)).toArray, last)
    | none => (done, from')
  let (done, from') := (re.matchesOf cs).foldl put (#[], 0)
  (done ++ text.extract from' text.size).toList

end Regex

end StreamScript
