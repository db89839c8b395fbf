import Std.Data.HashMap
import StreamScript.Regex.ByteSequence

/-!
# The room that sets take

How large an expression may be is a matter of the room that its layout as an
automaton on bytes takes. The automaton is not built; only its room is counted.
Every state takes as much as any other, every transition on bytes and every way
of a choice takes some more, and a layout is given up as soon as there is no
room left.

A set of characters takes one state for each place in its sequences of bytes,
but sequences share what they have in common. Read forwards, they share how
they begin, since they come in order, and states with the same transitions are
the same. Read backwards, they share how they end. States to share are looked
up in a memory of limited size: a state has one place there, which its
transitions decide, and whatever stood in that place before is forgotten.
-/

namespace StreamScript.Regex

/-! ## Room -/

/-- **Room that is taken**: how many states there are, and how many bytes their
transitions and ways take. -/
structure Room where
  states : Nat := 0
  extra : Nat := 0
deriving DecidableEq, Repr

/-- How many bytes a state takes. -/
def stateSize : Nat := 32

/-- How many bytes a transition takes. -/
def transitionSize : Nat := 8

/-- How many bytes a way of a choice takes. -/
def waySize : Nat := 4

/-- How many bytes there are. -/
def largest : Nat := 10485760

/-- How many bytes are taken. -/
def Room.bytes (r : Room) : Nat :=
  stateSize * r.states + r.extra

/-- Takes more room, if there is any left. -/
def Room.take (states extra : Nat) (r : Room) : Option Room :=
  let r : Room := { states := r.states + states, extra := r.extra + extra }
  if r.bytes ≤ largest then some r else none

/-! ## States to share -/

/-- **A memory of states**, by keys that say what they do. -/
structure Memory where
  /-- How many states can be remembered. -/
  places : Nat
  entries : Std.HashMap Nat (List Nat × Nat) := {}

/-- A number that depends on every part of a key. -/
def scatter (key : List Nat) : UInt64 :=
  key.foldl (fun h n => (h ^^^ n.toUInt64) * 1099511628211) 14695981039346656037

namespace Memory

/-- The place of a key. -/
def place (m : Memory) (key : List Nat) : Nat :=
  (scatter key).toNat % m.places

/-- The state of a key, if it is remembered. -/
def find? (m : Memory) (key : List Nat) : Option Nat :=
  match m.entries[m.place key]? with
  | some (stored, state) => if stored = key then some state else none
  | none => none

/-- Remembers the state of a key. -/
def put (m : Memory) (key : List Nat) (state : Nat) : Memory :=
  { m with entries := m.entries.insert (m.place key) (key, state) }

end Memory

/-- The room that is taken while a set is laid out, and the states that it can
share. -/
structure SetLayout where
  room : Room
  memory : Memory

/-- A step of laying out a set. It fails where there is no room. -/
abbrev Lay (α : Type) : Type := StateT SetLayout Option α

namespace Lay

/-- Takes room. -/
def take (states extra : Nat) : Lay Unit := fun l => do
  let room ← l.room.take states extra
  return ((), { l with room })

/-- The state of a key: one that is remembered, or a new one whose transitions
take so many bytes. -/
def shared (key : List Nat) (extra : Nat) : Lay Nat := fun l =>
  match l.memory.find? key with
  | some state => some (state, l)
  | none => do
    let room ← l.room.take 1 extra
    return (l.room.states, { room, memory := l.memory.put key l.room.states })

/-- The room that a layout takes beyond what is taken. -/
def room (places : Nat) (lay : Lay Unit) (r : Room) : Option Room :=
  (lay.run { room := r, memory := { places } }).map fun (_, l) => l.room

end Lay

/-! ## Forwards -/

/-- A state on the way of the sequence read last: the transitions that are
complete, the latest first, and the range of the one that is not. -/
structure OpenState where
  done : List (ByteRange × Nat)
  last : ByteRange

namespace OpenState

/-- A state with nothing behind it yet. -/
def fresh (r : ByteRange) : OpenState :=
  { done := [], last := r }

/-- All transitions of a state whose last one leads to `next`, the latest
first. -/
def complete (s : OpenState) (next : Nat) : List (ByteRange × Nat) :=
  (s.last, next) :: s.done

/-- The key of a state with some transitions. -/
def key (transitions : List (ByteRange × Nat)) : List Nat :=
  transitions.reverse.flatMap fun (r, next) => [r.first, r.last, next]

end OpenState

/-- Completes the states of a way, from its end, and yields the first. The way
leads to `target`. -/
def closeWay (target : Nat) : List OpenState → Lay Nat
  | [] => pure target
  | s :: deeper => do
    let next ← closeWay target deeper
    let transitions := s.complete next
    .shared (OpenState.key transitions) (transitionSize * transitions.length)

/-- Goes on with the next sequence: the way is kept as far as it begins like
the sequence, and is completed behind that. -/
def addSequence (target : Nat) : List OpenState → List ByteRange →
    Lay (List OpenState)
  | s :: deeper, r :: rest =>
    if s.last = r then do
      let deeper ← addSequence target deeper rest
      return s :: deeper
    else do
      let next ← closeWay target deeper
      return { done := s.complete next, last := r } :: rest.map .fresh
  | _, rest => return rest.map .fresh

/-- How many states are remembered forwards. -/
def forwardPlaces : Nat := 10000

/-- **Room for a set, read forwards.** The first state is where all sequences
lead. -/
def forwardRoom (sequences : List (List ByteRange)) (r : Room) : Option Room :=
  let lay : Lay Unit := do
    .take 1 0
    let way ← sequences.foldlM (addSequence r.states) []
    let _ ← closeWay r.states way
  lay.room forwardPlaces r

/-! ## Backwards -/

/-- How many states are remembered backwards. -/
def backwardPlaces : Nat := 1000

/-- **Room for a set, read backwards.** The first state is a choice between the
sequences, the second one is where all of them lead. A sequence is laid out
from its end, which its first byte is. -/
def backwardRoom (sequences : List (List ByteRange)) (r : Room) : Option Room :=
  let lay : Lay Unit := do
    .take 2 0
    for s in sequences do
      let _ ← s.foldlM (fun next b => Lay.shared [next, b.first, b.last] 0)
          (r.states + 1)
      .take 0 waySize
  lay.room backwardPlaces r

end StreamScript.Regex
