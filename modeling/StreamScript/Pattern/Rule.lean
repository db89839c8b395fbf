import StreamScript.Pattern.Bracket

/-!
# Patterns and rule tables

The grammar is written as tables. A `Row` of a table is a list of entries, each
of which takes some tokens at the cursor or fails; a table pairs its rows with
results, and the first row to match gives the result. The order of a table is
all that settles ambiguity, so what is more specific stands first.

An entry may carry a key, under which the tokens it took are recorded, and it
may be optional, in which case failing means taking nothing.

A match may start anywhere in the tokens, even behind their end, and it may be
required to reach their end (`matchFull`) or not (`matchPartial`).
-/

namespace StreamScript.Pattern

/-- **What an entry looks for** at the cursor. -/
inductive Test where
  /-- This very token. -/
  | token (t : Token)
  /-- One of these tokens. -/
  | oneOf (ts : List Token)
  /-- A token with this property. -/
  | satisfying (property : Token → Bool)
  /-- A run of tokens that the validator accepts. -/
  | sequence (validator : Validator)
  /-- All tokens that are left, of which there must be one. -/
  | rest

/-- One step of a pattern. -/
structure Entry where
  test : Test
  /-- The name under which the tokens are recorded. -/
  key : Option String := none
  /-- Whether the entry may fail without failing the pattern. -/
  optional : Bool := false

namespace Entry

/-- An entry for this very token. -/
def token (t : Token) : Entry where
  test := .token t

/-- An entry for one of these tokens. -/
def oneOf (ts : List Token) : Entry where
  test := .oneOf ts

/-- An entry for a token with this property. -/
def satisfying (property : Token → Bool) : Entry where
  test := .satisfying property

/-- An entry for a run of tokens that the validator accepts. -/
def sequence (validator : Validator) : Entry where
  test := .sequence validator

/-- An entry for all tokens that are left. -/
def rest : Entry where
  test := .rest

/-- The entry, recording what it takes. -/
def named (e : Entry) (key : String) : Entry :=
  { e with key := some key }

/-- The entry, no longer required. -/
def orNothing (e : Entry) : Entry :=
  { e with optional := true }

end Entry

/-- **A row of a table**: entries to be matched one after the other. -/
abbrev Row : Type := List Entry

/-- Lets the run `run` grow over the tokens that follow it until the validator
decides; the answer is the length of the accepted run. -/
def grow (validator : Validator) (run : List Token) : List Token → Option Nat
  | [] => none
  | t :: ts =>
    match validator (run ++ [t]) ts.head? with
    | .reject => none
    | .accept => some (run.length + 1)
    | .undecided => grow validator (run ++ [t]) ts

/-- **How many tokens a test takes** from the front of a list. -/
def Test.consume : Test → List Token → Option Nat
  | .token t, tokens => if tokens.head? = some t then some 1 else none
  | .oneOf ts, tokens =>
    match tokens with
    | [] => none
    | t :: _ => if ts.contains t then some 1 else none
  | .satisfying property, tokens =>
    match tokens with
    | [] => none
    | t :: _ => if property t then some 1 else none
  | .sequence validator, tokens => grow validator [] tokens
  | .rest, tokens => if tokens.isEmpty then none else some tokens.length

/-- A run grows within the tokens. -/
theorem le_of_grow {validator : Validator} {run tokens : List Token} {n : Nat}
    (h : grow validator run tokens = some n) :
    run.length < n ∧ n ≤ run.length + tokens.length := by
  induction tokens generalizing run with
  | nil => simp [grow] at h
  | cons t ts ih =>
    simp only [grow] at h
    simp only [List.length_cons]
    split at h
    · simp at h
    · simp only [Option.some.injEq] at h
      omega
    · have := ih h
      simp only [List.length_append, List.length_singleton] at this
      omega

/-- A test takes at least one token, and no more than there are. -/
theorem Test.consume_bounds {test : Test} {tokens : List Token} {n : Nat}
    (h : test.consume tokens = some n) : 0 < n ∧ n ≤ tokens.length := by
  cases test with
  | token t =>
    simp only [consume] at h
    split at h
    · cases tokens <;> simp_all
      omega
    · simp at h
  | oneOf ts =>
    cases tokens <;> simp only [consume] at h
    · simp at h
    · split at h <;> simp_all
      omega
  | satisfying p =>
    cases tokens <;> simp only [consume] at h
    · simp at h
    · split at h <;> simp_all
      omega
  | sequence v => simpa using le_of_grow h
  | rest =>
    simp only [consume] at h
    split at h
    · simp at h
    · rename_i hne
      have hpos : 0 < tokens.length :=
        List.length_pos_iff.2 fun e => hne (by simp [e])
      simp only [Option.some.injEq] at h
      omega

/-- **What a match has recorded.** -/
structure Captures where
  /-- The tokens taken by the entries with a key, in the order of the
  pattern. -/
  slots : List (String × List Token)
  /-- How many tokens the match took. -/
  consumed : Nat
deriving DecidableEq, Repr

/-- The tokens recorded under a key; the first entry with the key counts. -/
def Captures.get? (caps : Captures) (key : String) : Option (List Token) :=
  caps.slots.lookup key

/-- The first of the tokens recorded under a key. -/
def Captures.token? (caps : Captures) (key : String) : Option Token :=
  (caps.get? key).bind List.head?

/-- Matches the entries of a pattern, one after the other, from the front of
the tokens. -/
def walk : Row → List Token → Option Captures
  | [], _ => some ⟨[], 0⟩
  | e :: es, tokens =>
    match e.test.consume tokens with
    | some n =>
      (walk es (tokens.drop n)).map fun caps =>
        ⟨(e.key.map fun key => (key, tokens.take n)).toList ++ caps.slots,
          n + caps.consumed⟩
    | none => if e.optional then walk es tokens else none

/-- A match of as many tokens as the pattern takes, starting at `start`. -/
def matchPartial (p : Row) (tokens : List Token) (start : Nat) :
    Option Captures :=
  walk p (tokens.drop start)

/-- **A match that reaches the end of the tokens**, starting at `start`. -/
def matchFull (p : Row) (tokens : List Token) (start : Nat) : Option Captures :=
  (matchPartial p tokens start).filter fun caps =>
    start + caps.consumed == tokens.length

/-- **A table of rules.** -/
abbrev Rules (α : Type) : Type := List (Row × α)

/-- The first rule whose pattern matches at `start`. -/
def Rules.firstPartial {α : Type} (rules : Rules α) (tokens : List Token)
    (start : Nat) :
    Option (α × Captures) :=
  rules.findSome? fun (p, a) => (matchPartial p tokens start).map fun caps =>
    (a, caps)

/-- The first rule whose pattern matches from `start` to the end. -/
def Rules.firstFull {α : Type} (rules : Rules α) (tokens : List Token)
    (start : Nat) :
    Option (α × Captures) :=
  rules.findSome? fun (p, a) => (matchFull p tokens start).map fun caps =>
    (a, caps)

/-- A match takes no more tokens than there are. -/
theorem consumed_le_of_walk {p : Row} {tokens : List Token} {caps : Captures}
    (h : walk p tokens = some caps) : caps.consumed ≤ tokens.length := by
  induction p generalizing tokens caps with
  | nil =>
    simp only [walk, Option.some.injEq] at h
    simp [← h]
  | cons e es ih =>
    simp only [walk] at h
    split at h
    · rename_i n hn
      obtain ⟨caps', hw, rfl⟩ := Option.map_eq_some_iff.1 h
      have := ih hw
      have := (Test.consume_bounds hn).2
      simp only [List.length_drop] at *
      omega
    · split at h
      · exact ih h
      · simp at h

/-- The entries of a pattern that must match and leave no record. -/
def unrecorded (p : Row) : Nat :=
  p.countP fun e => !e.optional && e.key.isNone

/-- How many tokens the records hold together. -/
def recorded : List (String × List Token) → Nat
  | [] => 0
  | slot :: slots => slot.2.length + recorded slots

/-- **What a match records is only part of what it takes**: every required entry
without a key takes a token of its own. -/
theorem slots_add_unrecorded_le {p : Row} {tokens : List Token}
    {caps : Captures} (h : walk p tokens = some caps) :
    recorded caps.slots + unrecorded p ≤ caps.consumed := by
  induction p generalizing tokens caps with
  | nil =>
    simp only [walk, Option.some.injEq] at h
    simp [← h, unrecorded, recorded]
  | cons e es ih =>
    simp only [walk] at h
    split at h
    · rename_i n hn
      obtain ⟨caps', hw, rfl⟩ := Option.map_eq_some_iff.1 h
      have := ih hw
      have hpos := (Test.consume_bounds hn).1
      cases hk : e.key <;>
          simp [unrecorded, recorded, hk, List.countP_cons] at *
      · split <;> omega
      · omega
    · split at h
      · rename_i ho
        have := ih h
        simp_all [unrecorded]
      · simp at h

/-- One record is no longer than all of them together. -/
theorem length_le_recorded_of_mem {slots : List (String × List Token)}
    {slot : String × List Token} (h : slot ∈ slots) :
    slot.2.length ≤ recorded slots := by
  induction slots with
  | nil => simp at h
  | cons s rest ih =>
    simp only [recorded]
    rcases List.mem_cons.1 h with rfl | h
    · omega
    · have := ih h
      omega

/-- A record is shorter than the tokens if something else was required. -/
theorem length_lt_of_get? {p : Row} {tokens slice : List Token}
    {caps : Captures} {key : String} (h : walk p tokens = some caps)
    (hp : 0 < unrecorded p) (hs : caps.get? key = some slice) :
    slice.length < tokens.length := by
  have hmem : (key, slice) ∈ caps.slots := by
    obtain ⟨l, r, hl, -⟩ := List.lookup_eq_some_iff.1 hs
    simp [hl]
  have hle : slice.length ≤ recorded caps.slots :=
    length_le_recorded_of_mem hmem
  have := slots_add_unrecorded_le h
  have := consumed_le_of_walk h
  omega

/-- The rule that matched, in the table. -/
theorem Rules.exists_of_firstPartial {α : Type} {rules : Rules α}
    {tokens : List Token} {start : Nat} {a : α} {caps : Captures}
    (h : rules.firstPartial tokens start = some (a, caps)) :
    ∃ p, (p, a) ∈ rules ∧ walk p (tokens.drop start) = some caps := by
  obtain ⟨⟨p, b⟩, hmem, hb⟩ := List.exists_of_findSome?_eq_some h
  obtain ⟨c, hc, he⟩ := Option.map_eq_some_iff.1 hb
  simp only [Prod.mk.injEq] at he
  obtain ⟨rfl, rfl⟩ := he
  exact ⟨p, hmem, hc⟩

end StreamScript.Pattern
