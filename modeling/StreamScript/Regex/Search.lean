import StreamScript.Regex.Automaton

/-!
# Searching

An automaton is run over a text with all its ways at once, in order of
preference. A `Thread` is one of those ways: the state it has reached, and the
places it remembers. At every place of the text the threads are followed to
states that take a character, and no state is reached twice, since of two
threads in one state the preferred one always wins.

A thread that accepts ends the ones less preferred than itself; those preferred
to it go on, and may accept later and further behind. As long as nothing has
accepted, a new thread begins at every place, less preferred than all others, so
that the match that begins first is found.
-/

namespace StreamScript.Regex

/-- The places remembered, by slot: the beginnings and the ends of the groups in
turn. -/
abbrev Slots : Type := Array (Option Nat)

/-- Remembers a place. -/
def Slots.remember (slots : Slots) (slot pos : Nat) : Slots :=
  let wide := slots ++ Array.replicate (slot + 1 - slots.size) none
  wide.setIfInBounds slot (some pos)

/-- **A way through the automaton.** -/
structure Thread where
  state : Nat
  slots : Slots

/-- **A place in a text**: how far it is from the beginning, and what stands
around it. -/
structure Place where
  pos : Nat
  before : Option Char
  rest : List Char

namespace Place

/-- The beginning of a text. -/
def first (cs : List Char) : Place :=
  ⟨0, none, cs⟩

/-- The place so many characters further on. -/
def skip (n : Nat) (p : Place) : Place :=
  match n, p with
  | 0, p => p
  | _, ⟨pos, before, []⟩ => ⟨pos, before, []⟩
  | n + 1, ⟨pos, _, c :: rest⟩ => skip n ⟨pos + 1, some c, rest⟩

end Place

/-- **Follows threads** to states that take a character or accept. `stack`
holds the threads to follow, the preferred one first, `found` those that have
arrived, in reverse, and `seen` the states that have been reached. A state is
left once, so twice the number of states is fuel enough for those that are put
on the stack. -/
def follow (a : Automaton) (place : Place) :
    Nat → List Thread → Array Bool → List Thread → List Thread
  | 0, _, _, found => found.reverse
  | _, [], _, found => found.reverse
  | fuel + 1, t :: stack, seen, found =>
    if seen[t.state]?.getD true then follow a place fuel stack seen found
    else
      let seen := seen.setIfInBounds t.state true
      match a.states[t.state]? with
      | some (.char _ _) | some .accept =>
        follow a place fuel stack seen (t :: found)
      | some (.look l next) =>
        if l.holds place.before place.rest.head? then
          follow a place fuel (⟨next, t.slots⟩ :: stack) seen found
        else follow a place fuel stack seen found
      | some (.save slot next) =>
        follow a place fuel (⟨next, t.slots.remember slot place.pos⟩ :: stack)
          seen found
      | some (.split first second) =>
        follow a place fuel (⟨first, t.slots⟩ :: ⟨second, t.slots⟩ :: stack)
          seen found
      | none => follow a place fuel stack seen found

/-- The threads at a place, followed as far as they go without a character. -/
def arrivals (a : Automaton) (place : Place) (threads : List Thread) :
    List Thread :=
  follow a place (threads.length + 2 * a.states.size + 1) threads
    (Array.replicate a.states.size false) []

/-- Whether a thread has reached the end. -/
def Thread.accepts (a : Automaton) (t : Thread) : Bool :=
  match a.states[t.state]? with
  | some .accept => true
  | _ => false

/-- The thread behind a character, if its state takes that. -/
def Thread.take? (a : Automaton) (c : Char) (t : Thread) : Option Thread :=
  match a.states[t.state]? with
  | some (.char set next) =>
    if set.contains c then some ⟨next, t.slots⟩ else none
  | _ => none

/-- Runs threads over what is left of a text, with the best match so far. -/
def runFrom (a : Automaton) (best : Option Slots) (threads : List Thread)
    (pos : Nat) (before : Option Char) : List Char → Option Slots
  | [] => (settle [] threads).1
  | c :: rest =>
    let (best, alive) := settle (c :: rest) threads
    let threads := alive.filterMap (Thread.take? a c)
    if threads.isEmpty && best.isSome then best
    else runFrom a best threads (pos + 1) (some c) rest
where
  /-- The best match at a place, and the threads preferred to it. -/
  settle (rest : List Char) (threads : List Thread) :
    Option Slots × List Thread :=
    let threads := if best.isSome then threads else threads ++ [⟨a.start, #[]⟩]
    let here := arrivals a ⟨pos, before, rest⟩ threads
    let best := match here.find? (Thread.accepts a) with
      | some t => some t.slots
      | none => best
    (best, here.takeWhile fun t => !t.accepts a)

/-- **The first match at or behind a place**: of those that begin first, the
preferred one. -/
def Automaton.search (a : Automaton) (place : Place) : Option Slots :=
  runFrom a none [] place.pos place.before place.rest

end StreamScript.Regex
