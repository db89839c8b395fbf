import StreamScript.Regex.Room
import StreamScript.Regex.Syntax

/-!
# The room that expressions take

An expression is laid out twice, to be read forwards and backwards, and is
refused if either layout takes more room than there is (`Node.fits`).

A layout is put together from fragments. A fragment is laid out behind what
there is, and what comes next is connected to its end; where the end is a
choice, the connection is one more way of it and takes room. Repetitions are
laid out as often as they are counted, so that a short expression may take a
lot of room.

Read backwards, an expression begins with its last part, and groups leave no
trace.
-/

namespace StreamScript.Regex

open Text (CharSet)

/-- The directions in which a text is read. -/
inductive Direction where
  | forward
  | backward
deriving DecidableEq, Repr

/-- **A fragment of a layout.** -/
structure Fragment where
  /-- The bytes of a fragment that is a literal, in the order in which they are
  read. -/
  literal? : Option (List Nat) := none
  /-- Whether it ends in a choice. -/
  endsInChoice : Bool := false
  /-- What room is taken once it has been laid out. -/
  lay : Room → Option Room

namespace Fragment

/-- A fragment of so many states. -/
def ofStates (states extra : Nat) : Fragment :=
  { lay := Room.take states extra }

/-- The room of the connection between the end of a fragment and what comes
next. -/
def connection (f : Fragment) : Nat :=
  if f.endsInChoice then waySize else 0

/-- Lays out several things, one after the other. -/
def layAll : List (Room → Option Room) → Room → Option Room
  | [], r => some r
  | lay :: lays, r => (lay r).bind (layAll lays)

/-- Lays out something so many times. -/
def layTimes (lay : Room → Option Room) : Nat → Room → Option Room
  | 0, r => some r
  | n + 1, r =>
    match lay r with
    | some r => layTimes lay n r
    | none => none

/-- Two fragments one after the other. -/
def append (a b : Fragment) : Fragment :=
  { endsInChoice := b.endsInChoice
    lay := layAll [a.lay, Room.take 0 a.connection, b.lay] }

/-! ## Repetitions -/

/-- A fragment so many times; no times at all take one state. -/
def times (f : Fragment) : Nat → Fragment
  | 0 => ofStates 1 0
  | n + 1 =>
    { endsInChoice := f.endsInChoice
      lay :=
      layAll [f.lay, layTimes (layAll [Room.take 0 f.connection, f.lay]) n] }

/-- A fragment or nothing: a choice in front, and a state where both ways
meet. -/
def optional (f : Fragment) : Fragment :=
  { lay := layAll
      [Room.take 1 0, f.lay, Room.take 1 (2 * waySize + f.connection)] }

/-- A fragment once or more: a choice behind it leads back. -/
def oneOrMore (f : Fragment) : Fragment :=
  { endsInChoice := true
    lay := layAll [f.lay, Room.take 1 (waySize + f.connection)] }

/-- A fragment any number of times. If it always takes a character, one choice
in front is enough; else a loop and a choice that passes it are told apart. -/
def anyNumber (takesChar : Bool) (f : Fragment) : Fragment :=
  if takesChar then
    { endsInChoice := true
      lay :=
      layAll [Room.take 1 0, f.lay, Room.take 0 (waySize + f.connection)] }
  else { lay := layAll [f.lay, Room.take 3 (4 * waySize + f.connection)] }

/-- A fragment `least` times and up to `further` times more, each of which may
be the last. -/
def upTo (least further : Nat) (f : Fragment) : Fragment :=
  let needed := f.times least
  let more :=
    layAll [Room.take 1 0, f.lay, Room.take 0 (2 * waySize + f.connection)]
  { lay := layAll
      [needed.lay, Room.take 1 needed.connection, layTimes more further] }

/-- A repetition. -/
def repeated (least : Nat) (most : Option Nat) (takesChar : Bool)
    (f : Fragment) : Fragment :=
  match least, most with
  | 0, some 1 => f.optional
  | least, some most =>
    if least = most then f.times least else f.upTo least (most - least)
  | 0, none => f.anyNumber takesChar
  | 1, none => f.oneOrMore
  | least + 1, none => (f.times least).append f.oneOrMore

/-! ## Choices -/

/-- Splits a list at the items that are empty. -/
def splitAtEmpty : List (List Nat) → List (List (List Nat))
  | [] => [[]]
  | item :: items =>
    match item, splitAtEmpty items with
    | [], chunks => [] :: chunks
    | _, [] => [[item]]
    | _, chunk :: chunks => (item :: chunk) :: chunks

/-- The literals of a chunk without their first bytes, by first byte. -/
def byFirst (chunk : List (List Nat)) : List (List (List Nat)) :=
  (chunk.filterMap List.head?).eraseDups.map fun b =>
    chunk.filterMap fun literal => if literal.head? = some b
      then some literal.tail else none

/-- The room of a tree of literals, below the place where so much of each is
left to read. Where one of them ends, the ones behind it are less preferred,
and branch off anew. The tree is at most `depth` deep. -/
def treeRoom : Nat → List (List Nat) → Room
  | 0, _ => {}
  | depth + 1, literals =>
    if literals.all List.isEmpty then {}
    else
      let ending := literals.takeWhile List.isEmpty
      let chunks := splitAtEmpty (literals.drop (ending.length - 1))
      let branches := (chunks.filter fun chunk => !chunk.isEmpty).map byFirst
      let ways := branches.length + (chunks.length - 1)
      let own := branches.map fun branch =>
        if branch.length = 1 then 0 else transitionSize * branch.length
      (branches.flatten.map (treeRoom depth)).foldl
        (fun r below =>
          { states := r.states + below.states, extra := r.extra + below.extra })
        { states := 1 + branches.length, extra := waySize * ways + own.sum }

/-- A choice between literals, which share what they begin with. All of them
lead to one more state. -/
def ofLiterals (literals : List (List Nat)) : Fragment :=
  let depth := (literals.map List.length).foldl max 0
  let tree := treeRoom (depth + 1) literals
  ofStates (tree.states + 1) tree.extra

/-- A choice between fragments: a choice in front, and a state where all ways
meet. -/
def oneOf (fs : List Fragment) : Fragment :=
  match fs, fs.mapM (·.literal?) with
  | [f], _ => f
  | _, some literals => ofLiterals literals
  | fs, none =>
    let ways (fs : List Fragment) := fs.map fun f =>
      layAll [f.lay, Room.take 0 (waySize + f.connection)]
    { lay := layAll (ways (fs.take 2) ++ [Room.take 2 0] ++ ways (fs.drop 2)) }

end Fragment

/-- The fragment of a set. One whose characters are all in ASCII is a state
with a transition for each range. -/
def setFragment (d : Direction) (s : CharSet) : Fragment :=
  if s.isAscii then .ofStates 2 (transitionSize * s.ranges.length)
  else
    let sequences := sequencesOf s
    match d with
    | .forward => { lay := forwardRoom sequences }
    | .backward => { lay := backwardRoom sequences }

/-- **The fragments of an expression**, one for each way if it is a choice. -/
def Node.fragments (d : Direction) : Node → List Fragment
  | .empty => [.ofStates 1 0]
  | .literal cs =>
    let bytes := cs.flatMap bytesOf
    let bytes := if d = .forward then bytes else bytes.reverse
    [{ Fragment.ofStates bytes.length 0 with literal? := some bytes }]
  | .char s => [setFragment d s]
  | .look _ => [.ofStates 1 0]
  | .capture _ inner =>
    let f := Fragment.oneOf (inner.fragments d)
    match d with
    | .forward => [((Fragment.ofStates 1 0).append f).append (.ofStates 1 0)]
    | .backward => [{ f with literal? := none }]
  | .concat a b =>
    let a := Fragment.oneOf (a.fragments d)
    let b := Fragment.oneOf (b.fragments d)
    match d with
    | .forward => [a.append b]
    | .backward => [b.append a]
  | .alternate a b => a.fragments d ++ b.fragments d
  | .repetition least most _ inner =>
    [(Fragment.oneOf (inner.fragments d)).repeated least most inner.takesChar]

namespace Node

/-- Whether every match begins at the start of the text. -/
def startsText : Node → Bool
  | look .textStart => true
  | capture _ inner => inner.startsText
  | concat a b => a.startsText || (a.onlyEmpty && b.startsText)
  | alternate a b => a.startsText && b.startsText
  | repetition least _ _ inner => 0 < least && inner.startsText
  | _ => false

/-- Whether every match ends at the end of the text. -/
def endsText : Node → Bool
  | look .textEnd => true
  | capture _ inner => inner.endsText
  | concat a b => b.endsText || (b.onlyEmpty && a.endsText)
  | alternate a b => a.endsText && b.endsText
  | repetition least _ _ inner => 0 < least && inner.endsText
  | _ => false

/-- What stands in front of an expression that is searched for: a loop over any
byte, or one state if there is only one place to begin at. -/
def searchFragment (anchored : Bool) : Fragment :=
  if anchored then .ofStates 1 0
  else (Fragment.ofStates 2 transitionSize).anyNumber true

/-- The layout of an expression in one direction, with all that goes around
it. -/
def layout (d : Direction) (n : Node) : Fragment :=
  let whole := Fragment.oneOf ((n.capture 0).fragments d)
  let search :=
    searchFragment (if d = .forward then n.startsText else n.endsText)
  (search.append whole).append (.ofStates 1 0)

/-- **Whether there is room for an expression** in both directions. -/
def fits (n : Node) : Bool :=
  ((n.layout .forward).lay {}).isSome && ((n.layout .backward).lay {}).isSome

end Node

end StreamScript.Regex
