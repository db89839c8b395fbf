import StreamScript.Regex.Escape

/-!
# Classes between brackets

`[…]` holds characters, ranges, escapes, named ASCII classes such as
`[:alpha:]`, and other brackets. What stands side by side is united; `&&`, `--`
and `~~` intersect, subtract and take the symmetric difference, from left to
right and with equal strength. A `^` behind the opening bracket takes the
complement of it all. Where case does not matter, sets are taken in any case
before an operator or the complement applies to them.

A hyphen stands for itself at the beginning and the end, and a closing bracket
does where it would close an empty class.

Brackets are read with a list of those that are open. Each step takes at least
one character away.
-/

namespace StreamScript.Regex

open Text (CharSet)

/-- **A part of a class**: its characters, and how deep brackets and operators
nest in it. -/
structure ClassPart where
  set : CharSet
  nest : Nat := 0

/-- Parts side by side; one alone nests no deeper than itself. -/
def ClassPart.united : List ClassPart → ClassPart
  | [part] => part
  | parts =>
    { set := .unionAll (parts.map ClassPart.set)
      nest := if parts.isEmpty then 0
      else (parts.map ClassPart.nest).foldl max 0 + 1 }

/-- **An open bracket**: what has been read behind it. -/
structure Bracket where
  negated : Bool
  /-- What stands before the last operator, together with that operator. -/
  pending : Option (ClassPart × (CharSet → CharSet → CharSet)) := none
  /-- What stands side by side since, the latest first. -/
  parts : List ClassPart := []

namespace Bracket

/-- One more part. -/
def add (b : Bracket) (part : ClassPart) : Bracket :=
  { b with parts := part :: b.parts }

/-- What has been read so far, before any complement. -/
def value (flags : Flags) (b : Bracket) : ClassPart :=
  let last := ClassPart.united b.parts.reverse
  match b.pending with
  | some (left, combine) =>
    { set := combine (flags.fold left.set) (flags.fold last.set)
      nest := max left.nest last.nest + 1 }
  | none => last

/-- An operator: it takes what has been read as its left side. -/
def operator (flags : Flags) (b : Bracket)
    (combine : CharSet → CharSet → CharSet) : Bracket :=
  { b with pending := some (b.value flags, combine), parts := [] }

/-- The class of the whole bracket. -/
def close (flags : Flags) (b : Bracket) : ClassPart :=
  let inside := b.value flags
  { set := .negatedIf b.negated (flags.fold inside.set),
    nest := inside.nest + 1 }

end Bracket

/-- The characters of a range. ASCII mode knows no other characters. -/
def rangeSet? (flags : Flags) (first last : Char) : Option CharSet :=
  if last < first then none
  else if flags.ascii && (0x80 ≤ first.toNat || 0x80 ≤ last.toNat) then none
  else some (.range first.toNat last.toNat)

/-- Reads the beginning of a bracket, behind its opening: the complement sign,
hyphens, or a closing bracket that stands for itself. -/
def openBracket (flags : Flags) (cs : List Char) :
    Option (Bracket × List Char) :=
  let cs := flags.past cs
  let negated := cs.head? == some '^'
  let cs := if negated then flags.past cs.tail else cs
  let (hyphens, cs) := takeRun flags (· == '-') cs.length cs
  let literal (c : Char) : ClassPart := { set := .single c }
  if negated && flags.ascii then none
  else if hyphens.isEmpty && cs.head? == some ']' then
    some ({ negated, parts := [literal ']'] }, flags.past cs.tail)
  else some ({ negated, parts := hyphens.map literal }, cs)

/-- Reads `[:name:]`, if that is what stands here, behind its opening
bracket. -/
def asciiBracket? (flags : Flags) (cs : List Char) :
    Option (Option CharSet × List Char) :=
  match cs with
  | ':' :: rest =>
    let negated := rest.head? == some '^'
    let rest := if negated then rest.tail else rest
    match Text.breakOn [':'] rest with
    | some (name, ']' :: rest) =>
      (asciiClass? (String.ofList name)).map fun s =>
        (if negated && flags.ascii then none
          else some (.negatedIf negated (flags.fold s)), rest)
    | _ => none
  | _ => none

/-- Reads one item: an escape, or a character that stands for itself. -/
def readItem (flags : Flags) : List Char → Option (Atom × List Char)
  | [] => none
  | '\\' :: rest => readEscape flags rest
  | c :: rest => some (.literal c, rest)

/-- The next character that is neither blank nor begins a comment. The look
ahead does not see where a comment ends, so the first character inside that is
not blank is the next one. -/
def peekPast (comment : Bool) : List Char → Option Char
  | [] => none
  | c :: rest =>
    if Text.isBlank c then peekPast comment rest
    else if c == '#' && !comment then peekPast true rest
    else some c

/-- The next character, where blanks may count for nothing. -/
def Flags.peek (flags : Flags) (cs : List Char) : Option Char :=
  if flags.spaced then peekPast false cs else cs.head?

/-- **Reads an item or a range.** A hyphen makes a range unless it comes before
the closing bracket or another hyphen. -/
def readRange (flags : Flags) (cs : List Char) :
    Option (CharSet × List Char) := do
  let (first, rest) ← readItem flags cs
  match flags.past rest with
  | [] => none
  | '-' :: after =>
    let next := flags.peek after
    if next == some ']' || next == some '-' then
      let s ← alone first
      some (s, '-' :: after)
    else
      match first, ← readItem flags (flags.past after) with
      | .literal a, (.literal b, rest) =>
        let s ← rangeSet? flags a b
        some (s, rest)
      | _, _ => none
  | rest =>
    let s ← alone first
    some (s, rest)
where
  /-- The class of an item that begins no range. -/
  alone : Atom → Option CharSet
    | .literal c => rangeSet? flags c c
    | .named s => some s
    | .look _ | .dot => none

/-- One step inside brackets: what becomes of the innermost one, of those
around it, or of the whole class. -/
inductive BracketStep where
  | go (inner : Bracket) (outer : List Bracket)
  | closed (part : ClassPart)

/-- Reads one step. -/
def bracketStep (flags : Flags) (outer : List Bracket) (b : Bracket)
    (cs : List Char) :
    Option (BracketStep × List Char) :=
  match flags.past cs with
  | [] => none
  | '[' :: rest =>
    match asciiBracket? flags rest with
    | some (s, rest) => s.map fun s => (.go (b.add { set := s }) outer, rest)
    | none => (openBracket flags rest).map fun (inner, rest) =>
      (.go inner (b :: outer), rest)
  | ']' :: rest =>
    match outer with
    | [] => some (.closed (b.close flags), rest)
    | parent :: outer => some (.go (parent.add (b.close flags)) outer, rest)
  | '&' :: '&' :: rest => some (.go (b.operator flags .inter) outer, rest)
  | '-' :: '-' :: rest => some (.go (b.operator flags .diff) outer, rest)
  | '~' :: '~' :: rest => some (.go (b.operator flags .symm) outer, rest)
  | cs => (readRange flags cs).map fun (s, rest) =>
    (.go (b.add { set := s }) outer, rest)

/-- Reads steps until the outermost bracket is closed. -/
def readSteps (flags : Flags) (outer : List Bracket) (b : Bracket)
    (cs : List Char) :
    Option (ClassPart × List Char) :=
  match bracketStep flags outer b cs with
  | none => none
  | some (.closed part, rest) => some (part, rest)
  | some (.go b outer, rest) =>
    if rest.length < cs.length then readSteps flags outer b rest else none
termination_by cs.length

/-- **Reads a class between brackets**, behind the opening one. -/
def readBracket (flags : Flags) (cs : List Char) :
    Option (ClassPart × List Char) := do
  let (b, rest) ← openBracket flags cs
  readSteps flags [] b rest

end StreamScript.Regex
