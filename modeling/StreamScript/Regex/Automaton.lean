import StreamScript.Regex.Syntax

/-!
# Automata

An expression is matched by an automaton whose states each do one thing: take a
character, check a condition, remember a place, choose between two ways, or
accept. It is built from the back: `Node.build` adds the states that match an
expression and go on at a given state, and yields the one to begin with.

A choice has a preferred way, and the order of preference decides which of
several matches is the one. Where an expression that may match nothing is
repeated, the loop is therefore entered through a choice of its own: `x*` is
built as `(x+)?`, so that a round without a character is not preferred to
another way.
-/

namespace StreamScript.Regex

open Text (CharSet)

/-- **A state**, with the states it leads to. -/
inductive State where
  | char (s : CharSet) (next : Nat)
  | look (l : Look) (next : Nat)
  /-- Remembers the place in a slot. -/
  | save (slot next : Nat)
  /-- Two ways, the first one preferred. -/
  | split (first second : Nat)
  | accept

/-- What adds states to those there are. -/
abbrev Build (α : Type) : Type := StateM (Array State) α

namespace Build

/-- Adds a state, and yields its number. -/
def add (s : State) : Build Nat := fun states => (states.size, states.push s)

/-- Replaces a state. -/
def put (n : Nat) (s : State) : Build Unit :=
  fun states => ((), states.setIfInBounds n s)

/-- Applies a construction several times, each in front of the one before. -/
def iterate (build : Nat → Build Nat) : Nat → Nat → Build Nat
  | 0, entry => pure entry
  | n + 1, entry => do
    let entry ← build entry
    iterate build n entry

/-- The choice between going round and going on. -/
def fork (greedy : Bool) (body next : Nat) : State :=
  if greedy then .split body next else .split next body

/-- A loop that is left for `next`: the state that chooses, and the first of the
body. -/
def loop (greedy : Bool) (build : Nat → Build Nat) (next : Nat) :
    Build (Nat × Nat) := do
  let choice ← add .accept
  let body ← build choice
  put choice (fork greedy body next)
  return (choice, body)

end Build

open Build in
/-- **The states of an expression**, in front of the state that comes next. -/
def Node.build : Node → Nat → Build Nat
  | .empty, next => pure next
  | .literal cs, next =>
    cs.reverse.foldlM (fun next c => add (.char (.single c) next)) next
  | .char s, next => add (.char s next)
  | .look l, next => add (.look l next)
  | .capture i inner, next => do
    let last ← add (.save (2 * i + 1) next)
    let entry ← inner.build last
    add (.save (2 * i) entry)
  | .concat a b, next => do
    let middle ← b.build next
    a.build middle
  | .alternate a b, next => do
    let first ← a.build next
    let second ← b.build next
    add (.split first second)
  | .repetition least (some most) greedy inner, next => do
    let optional := fun entry => do
      let body ← inner.build entry
      add (fork greedy body next)
    let entry ← iterate optional (most - least) next
    iterate inner.build least entry
  | .repetition 0 none greedy inner, next => do
    let (choice, body) ← loop greedy inner.build next
    if inner.takesChar then return choice else add (fork greedy body next)
  | .repetition (least + 1) none greedy inner, next => do
    let (_, body) ← loop greedy inner.build next
    iterate inner.build least body

/-- **An automaton.** -/
structure Automaton where
  states : Array State
  start : Nat

/-- The automaton of an expression. The whole match is remembered like a group,
under the number 0. -/
def Node.automaton (node : Node) : Automaton :=
  let (start, states) := (node.capture 0).build 0 #[.accept]
  ⟨states, start⟩

end StreamScript.Regex
