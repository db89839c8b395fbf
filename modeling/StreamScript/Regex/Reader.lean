import StreamScript.Regex.Bracket
import StreamScript.Regex.Layout

/-!
# Reading expressions

A pattern is read from left to right with the groups that are open. Flags set
inside a group hold to its end, across its alternatives, and the flags before it
hold again behind it.

A repetition applies to the item before it, so there has to be one: flags alone
are none. Braces always begin a repetition; unlike brackets they never stand for
themselves.

Reading fails as a whole or yields one expression and the names of its groups.
What it refuses beyond faulty patterns are conditions that look around, nesting
deeper than `deepest`, and expressions whose layout takes too much room.
-/

namespace StreamScript.Regex

open Text (CharSet)

/-- How deep parts of an expression may nest. -/
def deepest : Nat := 250

/-- **A part of a sequence.** -/
structure Item where
  node : Node
  /-- How deep parts nest in it. -/
  nest : Nat := 0
  /-- Whether it can be repeated. -/
  repeatable : Bool := true

/-- Items put together; one alone stays as it is. -/
def Item.joined (combine : List Node → Node) : List Item → Item
  | [item] => item
  | items =>
    { node := combine (items.map Item.node)
      nest :=
      if items.isEmpty then 0 else (items.map Item.nest).foldl max 0 + 1 }

/-- What has been read of a group: the alternatives that are complete and the
items of the one that is not, the latest first. -/
structure Draft where
  done : List Item := []
  items : List Item := []

namespace Draft

/-- One more item. -/
def add (d : Draft) (item : Item) : Draft :=
  { d with items := item :: d.items }

/-- The end of an alternative. -/
def split (d : Draft) : Draft :=
  { done := .joined Node.concatAll d.items.reverse :: d.done }

/-- All of it as one item. -/
def value (d : Draft) : Item :=
  .joined Node.alternateAll d.split.done.reverse

end Draft

/-- **A group that is open**: what comes before it, and what it is. -/
structure OpenGroup where
  before : Draft
  /-- The flags that hold again behind the group. -/
  flags : Flags
  /-- The number of the group, if its place is remembered. -/
  number : Option Nat

/-- **The state of the reader.** -/
structure Reading where
  flags : Flags := {}
  draft : Draft := {}
  /-- The open groups, the innermost first. -/
  outer : List OpenGroup := []
  /-- The names of the groups whose places are remembered, in order. -/
  names : List (Option String) := []

namespace Reading

/-- One more item. -/
def add (r : Reading) (item : Item) : Reading :=
  { r with draft := r.draft.add item }

/-- Opens a group whose place is not remembered. -/
def openGroup (r : Reading) (flags : Flags) : Reading :=
  { r with flags, draft := {}, outer := ⟨r.draft, r.flags, none⟩ :: r.outer }

/-- Opens a group whose place is remembered. -/
def openCapture (r : Reading) (name : Option String) : Reading :=
  { r with
    draft := {}
    outer := ⟨r.draft, r.flags, some (r.names.length + 1)⟩ :: r.outer
    names := r.names ++ [name] }

/-- Closes the innermost group. -/
def closeGroup (r : Reading) : Option Reading :=
  match r.outer with
  | [] => none
  | g :: outer =>
    let inner := r.draft.value
    let node := match g.number with
      | some n => .capture n inner.node
      | none => inner.node
    some { r with
      flags := g.flags, outer, draft :=
        g.before.add { node, nest := inner.nest + 1 } }

/-- Repeats the item before. -/
def repeatLast (r : Reading) (least : Nat) (most : Option Nat) (marked : Bool) :
    Option Reading :=
  match r.draft.items with
  | [] => none
  | item :: items =>
    if item.repeatable then
      let greedy := marked == r.flags.lazy
      let repeated : Item :=
        { node := .repeated least most greedy item.node, nest := item.nest + 1 }
      some { r with draft := { r.draft with items := repeated :: items } }
    else none

end Reading

/-! ## Flags -/

/-- Sets the flag of a letter. -/
def Flags.set? (flags : Flags) (on : Bool) : Char → Option Flags
  | 'i' => some { flags with caseless := on }
  | 'm' => some { flags with lines := on }
  | 's' => some { flags with dotAll := on }
  | 'U' => some { flags with lazy := on }
  | 'u' => some { flags with ascii := !on }
  | 'R' => some { flags with returns := on }
  | 'x' => some { flags with spaced := on }
  | _ => none

/-- **Sets flags by their letters**: those behind a hyphen are switched off. No
letter may come twice, nor the hyphen, and the hyphen may not be last. -/
def setFlags (flags : Flags) (letters : List Char) : Option Flags :=
  if letters.Nodup ∧ letters.getLast? ≠ some '-' then
    let (on, off) := letters.span (· != '-')
    do
      let flags ← on.foldlM (Flags.set? · true) flags
      (off.drop 1).foldlM (Flags.set? · false) flags
  else none

/-! ## Groups -/

/-- The letters that may begin the name of a group. Names follow a later
edition of Unicode than classes do, and know the letters that it has added. -/
def nameLetters : CharSet :=
  Property.alphabetic.union (.ofRanges
    [(0x88F, 0x88F), (0xC5C, 0xC5C), (0xCDC, 0xCDC), (0xA7CE, 0xA7CF),
     (0xA7D2, 0xA7D2),
     (0xA7D4, 0xA7D4), (0xA7F1, 0xA7F1), (0x10940, 0x10959), (0x10EC5, 0x10EC7),
     (0x10EFA, 0x10EFB), (0x11B60, 0x11B67), (0x11DB0, 0x11DDB),
     (0x16EA0, 0x16EB8),
     (0x16EBB, 0x16ED3), (0x16FF2, 0x16FF6), (0x187F8, 0x187FF),
     (0x18D09, 0x18D1E),
     (0x18D80, 0x18DF2), (0x1E6C0, 0x1E6DE), (0x1E6E0, 0x1E6F5),
     (0x1E6FE, 0x1E6FF),
     (0x2B73A, 0x2B73F), (0x2CEA2, 0x2CEAD), (0x323B0, 0x33479)])

/-- The numbers that may stand in the name of a group, those of that edition
included. -/
def nameNumbers : CharSet :=
  (categories Category.numbers).union
    (.ofRanges [(0x11DE0, 0x11DE9), (0x16FF4, 0x16FF6)])

/-- Whether a character may begin the name of a group. -/
def startsName (c : Char) : Bool :=
  c == '_' || nameLetters.contains c

/-- Whether a character may stand in the name of a group. -/
def continuesName (c : Char) : Bool :=
  startsName c || c == '.' || c == '[' || c == ']' || nameNumbers.contains c

/-- Whether some characters are the name of a group. -/
def isGroupName (name : List Char) : Bool :=
  name.head?.any startsName && name.all continuesName

/-- What a group may not begin with: a condition that looks ahead or behind. -/
def looksAround (cs : List Char) : Bool :=
  ["?=", "?!", "?<=", "?<!"].any fun sign => sign.toList.isPrefixOf cs

/-- The name behind `?P<` or `?<`, and what is left. -/
def groupName? (cs : List Char) : Option (List Char) :=
  (['?', 'P', '<'].isPrefixOf? cs).or (['?', '<'].isPrefixOf? cs)

/-- **Reads the beginning of a group**, behind its opening parenthesis. Flags
that end in a parenthesis are no group; they hold from here on. -/
def readGroup (r : Reading) (cs : List Char) : Option (Reading × List Char) :=
  let cs := r.flags.past cs
  if looksAround cs then none
  else
    match groupName? cs, cs with
    | some rest, _ => do
      let (name, rest) ← Text.breakOn ['>'] rest
      let text := String.ofList name
      if isGroupName name && !r.names.contains (some text) then
        some (r.openCapture (some text), rest)
      else none
    | none, '?' :: rest =>
      let (letters, rest) := rest.span fun c => c != ':' && c != ')'
      match setFlags r.flags letters, rest with
      | some flags, ':' :: rest => some (r.openGroup flags, rest)
      | some flags, ')' :: rest =>
        if letters.isEmpty then none
        else some ({ r with flags }.add { node := .empty, repeatable := false },
          rest)
      | _, _ => none
    | none, cs => some (r.openCapture none, cs)

/-! ## Repetitions -/

/-- The greatest number of repetitions that can be written. -/
def mostRepetitions : Nat := 4294967295

/-- Reads a decimal number between blanks. -/
def readCount (flags : Flags) (cs : List Char) : Option (Nat × List Char) :=
  let cs := cs.dropWhile Text.isBlank
  let (digits, rest) := takeRun flags Char.isDigit cs.length cs
  let n := digits.foldl (fun n c => 10 * n + (c.toNat - '0'.toNat)) 0
  if digits.isEmpty || mostRepetitions < n then none
  else some (n, flags.past (rest.dropWhile Text.isBlank))

/-- The mark behind a repetition that turns its preference around. -/
def takeMark : List Char → Bool × List Char
  | '?' :: rest => (true, rest)
  | cs => (false, cs)

/-- **Reads a counted repetition**, behind its opening brace. -/
def readCounted (r : Reading) (cs : List Char) :
    Option (Reading × List Char) := do
  let flags := r.flags
  let (least, rest) ← readCount flags (flags.past cs)
  let (most, rest) ← match rest with
    | ',' :: rest =>
      match flags.past rest with
      | '}' :: rest => some (none, rest)
      | rest => (readCount flags rest).bind fun
        | (most, '}' :: rest) => some (some most, rest)
        | _ => none
    | '}' :: rest => some (some least, rest)
    | _ => none
  let (marked, rest) := takeMark (flags.past rest)
  if most.any (· < least) then none
  else
    let r ← r.repeatLast least most marked
    some (r, rest)

/-! ## Expressions -/

/-- What a dot matches. -/
def Flags.dot? (flags : Flags) : Option CharSet :=
  if flags.ascii then none
  else if flags.dotAll then some .all
  else if flags.returns then some (CharSet.ofCodes [0x0A, 0x0D]).compl
  else some (CharSet.single '\n').compl

/-- What `^` asks of its place. -/
def Flags.startLook (flags : Flags) : Look :=
  if flags.lines then (if flags.returns then .lineStartReturn else .lineStart)
      else .textStart

/-- What `$` asks of its place. -/
def Flags.endLook (flags : Flags) : Look :=
  if flags.lines then (if flags.returns then .lineEndReturn else .lineEnd)
      else .textEnd

/-- The expression of an atom. -/
def Flags.node? (flags : Flags) : Atom → Option Node
  | .literal c => some (.ofSet (flags.fold (.single c)))
  | .named s => some (.ofSet s)
  | .look l => some (.look l)
  | .dot => flags.dot?.map .ofSet

/-- **Reads one step of a pattern**, beginning with the given character. -/
def readStep (r : Reading) (c : Char) (rest : List Char) :
    Option (Reading × List Char) :=
  match c with
  | '(' => readGroup r rest
  | ')' => r.closeGroup.map fun r => (r, rest)
  | '|' => some ({ r with draft := r.draft.split }, rest)
  | '[' => (readBracket r.flags rest).map fun (part, rest) =>
    (r.add { node := .ofSet part.set, nest := part.nest }, rest)
  | '?' => counted 0 (some 1)
  | '*' => counted 0 none
  | '+' => counted 1 none
  | '{' => readCounted r rest
  | '\\' => (readEscape r.flags rest).bind fun (atom, rest) => atomic atom rest
  | '.' => atomic .dot rest
  | '^' => atomic (.look r.flags.startLook) rest
  | '$' => atomic (.look r.flags.endLook) rest
  | c => atomic (.literal c) rest
where
  /-- Repeats the item before as often as a single sign says. -/
  counted (least : Nat) (most : Option Nat) : Option (Reading × List Char) :=
    let (marked, rest) := takeMark rest
    (r.repeatLast least most marked).map fun r => (r, rest)
  /-- Adds an atom. -/
  atomic (atom : Atom) (rest : List Char) : Option (Reading × List Char) :=
    (r.flags.node? atom).map fun node => (r.add { node }, rest)

/-- Reads steps to the end of the pattern. Each takes at least one character
away, so that as many steps as there are characters are enough. -/
def readPattern : Nat → Reading → List Char → Option Reading
  | 0, r, cs => if (r.flags.past cs).isEmpty then some r else none
  | fuel + 1, r, cs =>
    match r.flags.past cs with
    | [] => some r
    | c :: rest => (readStep r c rest).bind fun (r, rest) =>
      readPattern fuel r rest

/-- **The expression of a pattern** and the names of its groups. -/
def Node.ofPattern? (pattern : List Char) :
    Option (Node × List (Option String)) := do
  let r ← readPattern pattern.length {} pattern
  let item := r.draft.value
  if r.outer.isEmpty && item.nest ≤ deepest && item.node.fits then
    some (item.node, r.names)
  else none

end StreamScript.Regex
