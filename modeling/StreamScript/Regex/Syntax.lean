import StreamScript.Text.CharSet

/-!
# Regular expressions

An expression is a tree over sets of characters and conditions on places. It
carries no flags: whether case matters, what a dot matches and which anchors
look at lines is settled when the expression is read, and shows in the sets
and conditions that the tree holds.

Trees are put together by functions that keep them small. Sequences and choices
are flat, and lean to the right. Characters that stand side by side are one
literal; a choice between single characters is a set; what all ways of a choice
begin with stands before the choice. A repetition of what matches only the empty
text is made at most once, since more of it would change nothing.
-/

namespace StreamScript.Regex

open Text (CharSet)

/-- **A condition on a place** in a text. -/
inductive Look where
  | textStart
  | textEnd
  /-- The start of the text, or behind a line feed. -/
  | lineStart
  /-- The end of the text, or before a line feed. -/
  | lineEnd
  /-- The same where lines may also end in carriage returns. -/
  | lineStartReturn
  | lineEndReturn
  /-- Between a word and what is none. The sets say what words are made
  of. -/
  | boundary (word : CharSet)
  | noBoundary (word : CharSet)
  | wordStart (word : CharSet)
  | wordEnd (word : CharSet)
  /-- Where no character of a word comes before. -/
  | startHalf (word : CharSet)
  /-- Where no character of a word comes after. -/
  | endHalf (word : CharSet)
deriving DecidableEq

/-- **Whether a condition holds** between the characters before and after a
place. -/
def Look.holds (before after : Option Char) : Look → Bool
  | textStart => before.isNone
  | textEnd => after.isNone
  | lineStart => before.isNone || before == some '\n'
  | lineEnd => after.isNone || after == some '\n'
  | lineStartReturn =>
    before.isNone || before == some '\n'
      || (before == some '\r' && after != some '\n')
  | lineEndReturn =>
    after.isNone || after == some '\r'
      || (after == some '\n' && before != some '\r')
  | boundary word => before.any word.contains != after.any word.contains
  | noBoundary word => before.any word.contains == after.any word.contains
  | wordStart word => !before.any word.contains && after.any word.contains
  | wordEnd word => before.any word.contains && !after.any word.contains
  | startHalf word => !before.any word.contains
  | endHalf word => !after.any word.contains

/-- **A regular expression.** -/
inductive Node where
  | empty
  /-- One or more characters, one after the other. -/
  | literal (cs : List Char)
  /-- One character of a set. -/
  | char (s : CharSet)
  | look (l : Look)
  /-- A group whose place in the text is remembered under a number. -/
  | capture (index : Nat) (inner : Node)
  | concat (a b : Node)
  /-- The first alternative is preferred. -/
  | alternate (a b : Node)
  /-- At least `least` and at most `most` times; as often as possible if
  `greedy`, else as seldom. -/
  | repetition (least : Nat) (most : Option Nat) (greedy : Bool) (inner : Node)
deriving DecidableEq

namespace Node

/-! ## Lengths -/

/-- The length of the shortest text that can match, unless a part that nothing
matches hides it. -/
def leastLength? : Node → Option Nat
  | empty => some 0
  | literal cs => some cs.length
  | char s => if s = .empty then none else some 1
  | look _ => some 0
  | capture _ inner => inner.leastLength?
  | concat a b => a.leastLength?.bind fun m => b.leastLength?.map (m + ·)
  | alternate a b => a.leastLength?.bind fun m => b.leastLength?.map (min m)
  | repetition least _ _ inner => inner.leastLength?.map (least * ·)

/-- Whether every match takes a character. -/
def takesChar (n : Node) : Bool :=
  n.leastLength?.any (0 < ·)

/-- Whether only the empty text can match. -/
def onlyEmpty : Node → Bool
  | empty => true
  | literal cs => cs.isEmpty
  | char _ => false
  | look _ => true
  | capture _ inner => inner.onlyEmpty
  | concat a b => a.onlyEmpty && b.onlyEmpty
  | alternate a b => a.onlyEmpty && b.onlyEmpty
  | repetition _ most _ inner => most.isSome && inner.onlyEmpty

/-! ## Putting expressions together -/

/-- One character of a set; a set of one character is a literal. -/
def ofSet (s : CharSet) : Node :=
  match s.single? with
  | some c => literal [c]
  | none => char s

/-- The parts of a sequence. -/
def parts : Node → List Node
  | empty => []
  | concat a b => a.parts ++ b.parts
  | n => [n]

/-- Puts a part in front of others; two literals become one. -/
def joinLiteral : Node → List Node → List Node
  | literal a, literal b :: rest => literal (a ++ b) :: rest
  | n, rest => n :: rest

/-- Combines expressions from the right; `nothing` stands for no expression. -/
def chain (combine : Node → Node → Node) (nothing : Node) (ns : List Node) :
    Node :=
  match ns.reverse with
  | [] => nothing
  | last :: before => before.foldl (fun rest n => combine n rest) last

/-- **Expressions one after the other.** -/
def concatAll (ns : List Node) : Node :=
  chain concat empty ((ns.flatMap parts).foldr joinLiteral [])

/-- The ways of a choice. -/
def alternatives : Node → List Node
  | alternate a b => a.alternatives ++ b.alternatives
  | n => [n]

/-- The character of a literal that has only one. -/
def oneChar? : Node → Option Char
  | literal [c] => some c
  | _ => none

/-- The set of an expression that is one. -/
def set? : Node → Option CharSet
  | char s => some s
  | _ => none

/-- A choice between single characters is a set, and so is one between sets. -/
def choice (ns : List Node) : Node :=
  let ways := ns.flatMap alternatives
  match ways, ways.mapM oneChar?, ways.mapM set? with
  | [n], _, _ => n
  | _, some cs, _ => ofSet (.ofCodes (cs.map Char.toNat))
  | _, _, some sets => ofSet (.unionAll sets)
  | _, _, _ => chain alternate (char .empty) ways

/-- What two lists begin with alike. -/
def common : List Node → List Node → List Node
  | a :: as, b :: bs => if a = b then a :: common as bs else []
  | _, _ => []

/-- The parts of an expression that is a sequence. -/
def sequence? : Node → Option (List Node)
  | concat a b => some (concat a b).parts
  | _ => none

/-- **Expressions to choose from**, the first one preferred. -/
def alternateAll (ns : List Node) : Node :=
  match (ns.flatMap alternatives).mapM sequence? with
  | some (first :: second :: rest) =>
    let shared := (second :: rest).foldl common first
    if shared.isEmpty then choice ns
    else
      let behind := (first :: second :: rest).map fun s =>
        concatAll (s.drop shared.length)
      concatAll (shared ++ [choice behind])
  | _ => choice ns

/-- **An expression so many times.** -/
def repeated (least : Nat) (most : Option Nat) (greedy : Bool) (inner : Node) :
    Node :=
  let once := inner.onlyEmpty
  let least := if once then min least 1 else least
  let most := if once then some (min (most.getD 1) 1) else most
  if least = 0 ∧ most = some 0 then empty
  else if least = 1 ∧ most = some 1 then inner
  else repetition least most greedy inner

end Node

end StreamScript.Regex
