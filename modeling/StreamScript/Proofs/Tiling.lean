import Mathlib.Data.List.Forall2
import StreamScript.Pattern.Rule

/-!
# Matches tile the tokens

A match hands on to every entry the tokens that the entries before it have
left, and so it never says where in the tokens it is. This module says it.
Every entry of a pattern has a `Span`, the first span begins where the match
begins, and every other one where the span before it ends (`Tiles`). It is as
long as what its entry takes there, and it is empty exactly if the entry is
optional and fails. What the match records are the tokens of the spans, in the
order of the pattern (`matchPartial_eq_some_iff`).

Positions can be wrong, as tokens that are left over cannot. A walk that is
told its position, and cuts all it looks at and all it records out of the
tokens (`matchFrom`), would come to grief if it asked for tokens that are not
there. It never does, wherever it begins, and it finds the same matches
(`matchFrom_eq`).
-/

namespace StreamScript.Pattern

variable {p : Row} {e : Entry} {tokens : List Token} {start n : Nat}

/-! ## Matching by positions

The walk by positions is a program of its own, with a failure that the match
does not have: to ask for tokens between positions that are not there. It is
written to be compared with the match. Wherever it asks, the tokens in front of
the position have been taken by entries, and an entry takes tokens that are
there. -/

/-- Two positions that do not enclose tokens. -/
structure OutOfRange where
  start : Nat
  stop : Nat
deriving DecidableEq, Repr

/-- **The tokens between two positions**, which must be positions among the
tokens, the second not in front of the first. Anything else is an error of its
own, which stands for a slice that is out of range. So "no such slice is ever
asked for" is a statement about what the walk comes to. -/
def cutOut (tokens : List Token) (start stop : Nat) :
    Except OutOfRange (List Token) :=
  if start ≤ stop ∧ stop ≤ tokens.length
      then .ok ((tokens.drop start).take (stop - start))
  else .error ⟨start, stop⟩

/-- Tries the runs at the front of some tokens, from the one of the given
length on. At most so many of them are tried. -/
def growFrom (validator : Validator) (tokens : List Token) (length : Nat) :
    Nat → Except OutOfRange (Option Nat)
  | 0 => return none
  | tries + 1 => do
    let run ← cutOut tokens 0 length
    match validator run tokens[length]? with
    | .reject => return none
    | .accept => return some length
    | .undecided => growFrom validator tokens (length + 1) tries

/-- How many tokens a test takes from a position on. Behind the last token
there is none left. -/
def Test.consumeFrom (test : Test) (tokens : List Token) (position : Nat) :
    Except OutOfRange (Option Nat) :=
  let rest := tokens.drop position
  match test with
  | .sequence validator => growFrom validator rest 1 rest.length
  | test => return test.consume rest

/-- What is recorded of an entry that takes some tokens from a position on. -/
def Entry.slotFrom (e : Entry) (tokens : List Token) (position n : Nat) :
    Except OutOfRange (List (String × List Token)) :=
  match e.key with
  | none => return []
  | some key => do
    let slice ← cutOut tokens position (position + n)
    return [(key, slice)]

/-- Walks down a pattern, with the position that has been reached. The answer
is what has been recorded, and the position in the end. -/
def walkFrom (tokens : List Token) :
    Row → Nat → Except OutOfRange (Option (List (String × List Token) × Nat))
  | [], position => return some ([], position)
  | e :: es, position => do
    match ← e.test.consumeFrom tokens position with
    | some n =>
      let slot ← e.slotFrom tokens position n
      let found ← walkFrom tokens es (position + n)
      return found.map fun (slots, stop) => (slot ++ slots, stop)
    | none => if e.optional then walkFrom tokens es position else return none

/-- **A match by positions.** It keeps the position and cuts out of the whole
list, where the definition of a match hands on what is left of it. This is the
form in which a pattern is walked in place. -/
def matchFrom (p : Row) (tokens : List Token) (start : Nat) :
    Except OutOfRange (Option Captures) := do
  let found ← walkFrom tokens p start
  return found.map fun (slots, stop) => ⟨slots, stop - start⟩

/-- Positions that are there enclose so many tokens. -/
theorem cutOut_eq_ok (h : start + n ≤ tokens.length) :
    cutOut tokens start (start + n) = .ok ((tokens.drop start).take n) := by
  rw [cutOut, if_pos ⟨Nat.le_add_right start n, h⟩, Nat.add_sub_cancel_left]

/-- A test takes tokens that are there. -/
theorem add_le_of_consume {test : Test}
    (h : test.consume (tokens.drop start) = some n) :
    start + n ≤ tokens.length := by
  obtain ⟨hpos, hle⟩ := Test.consume_bounds h
  rw [List.length_drop] at hle
  omega

/-- Runs that are cut out of the tokens are the runs that grow. -/
theorem growFrom_eq (validator : Validator) (k tries : Nat)
    (h : tokens.length = k + tries) :
    growFrom validator tokens (k + 1) tries
      = .ok (grow validator (tokens.take k) (tokens.drop k)) := by
  induction tries generalizing k with
  | zero =>
    have hdrop : tokens.drop k = [] := List.drop_of_length_le (Nat.le_of_eq h)
    rw [hdrop]
    rfl
  | succ tries ih =>
    have hk : k < tokens.length := by omega
    have hcut : cutOut tokens 0 (k + 1) = .ok (tokens.take (k + 1)) := by
      rw [cutOut, if_pos ⟨Nat.zero_le _, hk⟩]
      rfl
    have hgrown : tokens.take k ++ [tokens[k]] = tokens.take (k + 1) :=
      List.take_append_getElem hk
    rw [List.drop_eq_getElem_cons hk, grow, hgrown, List.head?_drop,
      growFrom, hcut]
    show (match validator (tokens.take (k + 1)) tokens[k + 1]? with
      | .reject => _ | .accept => _ | .undecided => _) = _
    cases validator (tokens.take (k + 1)) tokens[k + 1]? with
    | reject => rfl
    | accept =>
      show Except.ok (some (k + 1)) = .ok (some ((tokens.take k).length + 1))
      rw [List.length_take_of_le (Nat.le_of_lt hk)]
    | undecided => exact ih (k + 1) (by omega)

/-- A test by positions takes as many as the test itself, and does not fail. -/
theorem Test.consumeFrom_eq (test : Test) (tokens : List Token)
    (position : Nat) :
    test.consumeFrom tokens position
    = .ok (test.consume (tokens.drop position)) := by
  cases test with
  | sequence validator => exact growFrom_eq validator 0 _ (Nat.zero_add _).symm
  | _ => rfl

/-- What is recorded of an entry is cut out without failure. -/
theorem Entry.slotFrom_eq (e : Entry) (h : start + n ≤ tokens.length) :
    e.slotFrom tokens start n
      = .ok
      (e.key.map fun key => (key, (tokens.drop start).take n)).toList := by
  unfold slotFrom
  cases e.key with
  | none => rfl
  | some key =>
    rw [cutOut_eq_ok h]
    rfl

/-- By induction along the pattern, at any position. The position may lie
behind the tokens; no token is asked for there. -/
theorem walkFrom_eq (p : Row) (tokens : List Token) (position : Nat) :
    walkFrom tokens p position
      = .ok ((walk p (tokens.drop position)).map fun caps =>
      (caps.slots, position + caps.consumed)) := by
  induction p generalizing position with
  | nil => rfl
  | cons e p ih =>
    rw [walkFrom, walk, Test.consumeFrom_eq]
    show (match e.test.consume (tokens.drop position) with
      | some n => _
      | none => _) = _
    cases hn : e.test.consume (tokens.drop position) with
    | none =>
      dsimp only
      split
      · exact ih position
      · rfl
    | some n =>
      dsimp only
      rw [Entry.slotFrom_eq e (add_le_of_consume hn), ih, List.drop_drop]
      show Except.ok (Option.map _ (Option.map _ _)) = _
      rw [Option.map_map, Option.map_map]
      refine congrArg (fun f => Except.ok (Option.map f _))
        (funext fun caps => ?_)
      show (_, position + n + caps.consumed)
          = (_, position + (n + caps.consumed))
      rw [Nat.add_assoc]

/-- **A match never asks for tokens that are not there**, and finds the same by
positions. Every entry takes what is there, so the position never passes the
end; and a position behind the end of the list from the beginning has nothing
left behind it in either form. -/
theorem matchFrom_eq (p : Row) (tokens : List Token) (start : Nat) :
    matchFrom p tokens start = .ok (matchPartial p tokens start) := by
  rw [matchFrom, walkFrom_eq, matchPartial]
  show Except.ok (Option.map _ (Option.map _ _)) = _
  rw [Option.map_map]
  refine congrArg Except.ok
    ((congrArg (fun f => Option.map f _) (funext fun caps => ?_)).trans
      Option.map_id')
  show Captures.mk caps.slots (start + caps.consumed - start) = caps
  rw [Nat.add_sub_cancel_left]

/-! ## Spans

A span is given by its beginning and its length. What spans have to do with the
entries is said one by one (`Entry.Fills`), and what they have to do with one
another by where each of them begins. Neither mentions a walk. -/

/-- **A stretch of tokens**: the position it begins at, and how many tokens it
has. The spans of a match are what it has to show besides its slots: an entry
that records nothing has one too. -/
structure Span where
  start : Nat
  length : Nat
deriving DecidableEq, Repr

namespace Span

/-- The position behind the span. -/
def stop (s : Span) : Nat :=
  s.start + s.length

/-- The tokens of a span. -/
def tokensOf (s : Span) (tokens : List Token) : List Token :=
  (tokens.drop s.start).take s.length

end Span

/-- How many tokens some spans have together. -/
def totalLength : List Span → Nat
  | [] => 0
  | s :: spans => s.length + totalLength spans

/-- **A span fits an entry.** An empty span is one of an optional entry that
does not take anything. That the entry takes nothing is asked for, so a match
does not pass over an entry that could take something. -/
structure Entry.Fills (e : Entry) (tokens : List Token) (s : Span) : Prop where
  /-- If it is not empty, the entry takes it where it begins. -/
  taken : s.length ≠ 0 → e.test.consume (tokens.drop s.start) = some s.length
  /-- It is empty exactly if the entry may fail and does. -/
  empty_iff : s.length = 0 ↔ e.optional = true ∧
    e.test.consume (tokens.drop s.start) = none

/-- **Spans that tile the tokens from a position on**, as a pattern wants them.
They lie one behind the other without a gap. Where a span begins is determined
by the lengths of those before it. -/
structure Tiles (p : Row) (tokens : List Token) (start : Nat)
    (spans : List Span) : Prop where
  /-- There is one for each entry, and it fits. -/
  fills : List.Forall₂ (fun e s => e.Fills tokens s) p spans
  /-- Each begins behind those before it, without a gap and without an
  overlap. -/
  start_eq : ∀ front s back, spans = front ++ s :: back →
    s.start = start + totalLength front

/-- What a match records if its entries have these spans: the tokens of every
entry that has a key and takes part. -/
def slotsOf (p : Row) (tokens : List Token) (spans : List Span) :
    List (String × List Token) :=
  (p.zip spans).filterMap fun (e, s) =>
    if s.length = 0 then none else e.key.map fun key => (key, s.tokensOf tokens)

/-- **A match whose entries have these spans.** So a match is known from its
spans: how many tokens it takes, and which of them are found under which key.
-/
structure Tiling (p : Row) (tokens : List Token) (start : Nat)
    (spans : List Span) (caps : Captures) :
    Prop extends Tiles p tokens start spans where
  consumed_eq : caps.consumed = totalLength spans
  slots_eq : caps.slots = slotsOf p tokens spans

/-- **A required entry fails** behind the spans of the entries before it. The
entries before it do match, which is why it is tried at all; the entries behind
it are not looked at. -/
def FailsWithin (p : Row) (tokens : List Token) (start : Nat) : Prop :=
  ∃ front e back spans, p = front ++ e :: back ∧
    Tiles front tokens start spans ∧
    e.optional = false ∧
    e.test.consume (tokens.drop (start + totalLength spans)) = none

theorem totalLength_cons (s : Span) (spans : List Span) :
    totalLength (s :: spans) = s.length + totalLength spans := rfl

/-- An entry that takes something has the span of that, -/
theorem Entry.fills_of_some (h : e.test.consume (tokens.drop start) = some n) :
    e.Fills tokens ⟨start, n⟩ where
  taken _ := h
  empty_iff := by
    refine iff_of_false (Nat.ne_of_gt (Test.consume_bounds h).1) fun hnone => ?_
    rw [h] at hnone
    cases hnone.2

/-- and one that may fail and does has an empty one. -/
theorem Entry.fills_of_none (h : e.test.consume (tokens.drop start) = none)
    (ho : e.optional = true) : e.Fills tokens ⟨start, 0⟩ where
  taken hne := absurd rfl hne
  empty_iff := iff_of_true rfl ⟨ho, h⟩

/-- The span of an entry is as long as what the entry takes. -/
theorem Entry.Fills.length_eq {s : Span} (h : e.Fills tokens s)
    (hn : e.test.consume (tokens.drop s.start) = some n) : s.length = n := by
  have hne : s.length ≠ 0 := fun hzero => by
    rw [(h.empty_iff.1 hzero).2] at hn
    cases hn
  exact Option.some.inj ((h.taken hne).symm.trans hn)

/-- If the entry takes nothing it need not, and the span is empty. -/
theorem Entry.Fills.of_none {s : Span} (h : e.Fills tokens s)
    (hn : e.test.consume (tokens.drop s.start) = none) :
    s.length = 0 ∧ e.optional = true := by
  have hzero : s.length = 0 := by
    by_contra hne
    rw [h.taken hne] at hn
    cases hn
  exact ⟨hzero, (h.empty_iff.1 hzero).1⟩

/-- No entries have no spans. -/
theorem tiles_nil_iff {spans : List Span} :
    Tiles [] tokens start spans ↔ spans = [] := by
  constructor
  · intro h
    exact List.forall₂_nil_left_iff.1 h.fills
  · rintro rfl
    exact ⟨.nil, fun front s back h => by simp at h⟩

/-- The first entry has a span at the beginning, and the spans of the others
tile what is behind it. -/
theorem tiles_cons_iff {spans : List Span} :
    Tiles (e :: p) tokens start spans ↔
      ∃ n rest, spans = ⟨start, n⟩ :: rest ∧ e.Fills tokens ⟨start, n⟩ ∧
        Tiles p tokens (start + n) rest := by
  constructor
  · rintro ⟨hfills, hstart⟩
    obtain ⟨⟨first, n⟩, rest, hfirst, hrest, rfl⟩ :=
      List.forall₂_cons_left_iff.1 hfills
    obtain rfl : first = start := hstart [] _ rest rfl
    refine ⟨n, rest, rfl, hfirst, hrest, fun front s back h => ?_⟩
    rw [hstart (⟨first, n⟩ :: front) s back (congrArg _ h), totalLength_cons,
      Nat.add_assoc]
  · rintro ⟨n, rest, rfl, hfirst, hfills, hstart⟩
    refine ⟨.cons hfirst hfills, fun front s back h => ?_⟩
    obtain ⟨rfl, hs⟩ | ⟨front, rfl, hrest⟩ := List.cons_eq_append_iff.1 h
    · rw [(List.cons.inj hs).1]
      rfl
    · rw [hstart front s back hrest, totalLength_cons, Nat.add_assoc]

/-! ## The spans of a match

A match and a tiling are both taken apart at the first entry: what it takes is
its span, and the others go on behind. There are two cases. The entry takes
something, and then its span is not empty; or it takes nothing and may, and
then the span is empty and the others begin where it did. -/

/-- The first entry of a pattern, and the others behind what it takes. -/
theorem matchPartial_cons (e : Entry) (p : Row) (tokens : List Token)
    (start : Nat) :
    matchPartial (e :: p) tokens start =
      match e.test.consume (tokens.drop start) with
      | some n => (matchPartial p tokens (start + n)).map fun caps =>
          ⟨(e.key.map fun key => (key, (tokens.drop start).take n)).toList
            ++ caps.slots, n + caps.consumed⟩
      | none => if e.optional then matchPartial p tokens start else none := by
  rw [matchPartial, walk]
  cases e.test.consume (tokens.drop start) with
  | none => rfl
  | some n =>
    dsimp only
    rw [List.drop_drop]
    rfl

/-- An entry that takes part records its span, if it has a key. -/
theorem slotsOf_cons (hne : n ≠ 0) (spans : List Span) :
    slotsOf (e :: p) tokens (⟨start, n⟩ :: spans)
      = (e.key.map fun key => (key, (tokens.drop start).take n)).toList
          ++ slotsOf p tokens spans := by
  unfold slotsOf
  rw [List.zip_cons_cons, List.filterMap_cons]
  dsimp only
  rw [if_neg hne]
  cases e.key <;> rfl

section

variable {caps : Captures}

/-- Without entries nothing is taken or recorded. -/
theorem tiling_nil_iff :
    (∃ spans, Tiling [] tokens start spans caps) ↔ ⟨[], 0⟩ = caps := by
  constructor
  · rintro ⟨spans, htiles, hconsumed, hslots⟩
    obtain rfl := tiles_nil_iff.1 htiles
    exact congrArg₂ Captures.mk hslots.symm hconsumed.symm
  · rintro rfl
    exact ⟨[], tiles_nil_iff.2 rfl, rfl, rfl⟩

/-- An entry that takes something, in front of the others. -/
theorem tiling_cons_of_some (hn : e.test.consume (tokens.drop start) = some n) :
    (∃ spans, Tiling (e :: p) tokens start spans caps) ↔
      ∃ behind, (∃ spans, Tiling p tokens (start + n) spans behind) ∧
        ⟨(e.key.map fun key => (key, (tokens.drop start).take n)).toList
          ++ behind.slots, n + behind.consumed⟩ = caps := by
  have hne : n ≠ 0 := Nat.ne_of_gt (Test.consume_bounds hn).1
  constructor
  · rintro ⟨spans, htiles, hconsumed, hslots⟩
    obtain ⟨m, rest, rfl, hfills, hrest⟩ := tiles_cons_iff.1 htiles
    obtain rfl : m = n := hfills.length_eq hn
    rw [slotsOf_cons hne] at hslots
    exact ⟨⟨slotsOf p tokens rest, totalLength rest⟩, ⟨rest, hrest, rfl, rfl⟩,
      congrArg₂ Captures.mk hslots.symm hconsumed.symm⟩
  · rintro ⟨behind, ⟨spans, htiles, hconsumed, hslots⟩, rfl⟩
    refine ⟨⟨start, n⟩ :: spans,
      tiles_cons_iff.2 ⟨n, spans, rfl, Entry.fills_of_some hn, htiles⟩, ?_, ?_⟩
    · rw [hconsumed, totalLength_cons]
    · rw [hslots, slotsOf_cons hne]

/-- An entry that fails, and may. -/
theorem tiling_cons_of_none (hn : e.test.consume (tokens.drop start) = none) :
    (∃ spans, Tiling (e :: p) tokens start spans caps) ↔
      e.optional = true ∧ ∃ spans, Tiling p tokens start spans caps := by
  constructor
  · rintro ⟨spans, htiles, hconsumed, hslots⟩
    obtain ⟨m, rest, rfl, hfills, hrest⟩ := tiles_cons_iff.1 htiles
    obtain ⟨rfl, ho⟩ : m = 0 ∧ e.optional = true := hfills.of_none hn
    rw [totalLength_cons, Nat.zero_add] at hconsumed
    exact ⟨ho, rest, hrest, hconsumed, hslots⟩
  · rintro ⟨ho, spans, htiles, hconsumed, hslots⟩
    refine ⟨⟨start, 0⟩ :: spans,
      tiles_cons_iff.2 ⟨0, spans, rfl, Entry.fills_of_none hn ho, htiles⟩,
      ?_, hslots⟩
    rw [hconsumed, totalLength_cons, Nat.zero_add]

/-- **A match is a tiling**: it comes about if there are spans for its entries,
and then it takes what they have together and records what they hold. The
induction is on the pattern, with the position generalized: what the first
entry takes is its span, and the rest of the pattern begins behind it. -/
theorem matchPartial_eq_some_iff :
    matchPartial p tokens start = some caps ↔ ∃ spans,
        Tiling p tokens start spans caps := by
  induction p generalizing start caps with
  | nil => exact Option.some_inj.trans tiling_nil_iff.symm
  | cons e p ih =>
    rw [matchPartial_cons]
    cases hn : e.test.consume (tokens.drop start) with
    | some n =>
      rw [tiling_cons_of_some hn]
      simp only [Option.map_eq_some_iff, ih]
    | none =>
      rw [tiling_cons_of_none hn, ← ih]
      dsimp only
      split
      · next ho => exact (and_iff_right ho).symm
      · next ho => exact iff_of_false nofun fun h => ho h.1

end

/-- Spans lie within the tokens, if they begin there. -/
theorem Tiles.add_totalLength_le {spans : List Span}
    (h : Tiles p tokens start spans) :
    start + totalLength spans ≤ max start tokens.length := by
  induction p generalizing start spans with
  | nil =>
    obtain rfl := tiles_nil_iff.1 h
    exact Nat.le_max_left _ _
  | cons e p ih =>
    obtain ⟨n, rest, rfl, hfills, hrest⟩ := tiles_cons_iff.1 h
    have hbehind :
        start + n + totalLength rest ≤ max (start + n) tokens.length := ih hrest
    rw [totalLength_cons, ← Nat.add_assoc]
    dsimp only
    by_cases hn : n = 0
    · rwa [hn] at hbehind ⊢
    · have hle : start + n ≤ tokens.length :=
        add_le_of_consume (hfills.taken hn)
      omega

/-! ## What makes a match fail

A match fails at a single entry. This entry is required and takes nothing, and
the entries in front of it have their spans. Entries may be left out on the way
only if they fail, so there is no second way to match that would succeed. -/

/-- If the first entry takes something, the failing one is among the others. -/
theorem failsWithin_cons_of_some
    (hn : e.test.consume (tokens.drop start) = some n) :
    FailsWithin (e :: p) tokens start ↔ FailsWithin p tokens (start + n) := by
  constructor
  · rintro ⟨front, e', back, spans, hp, htiles, ho, hfails⟩
    obtain ⟨rfl, hp⟩ | ⟨front, rfl, rfl⟩ := List.cons_eq_append_iff.1 hp
    · obtain rfl := tiles_nil_iff.1 htiles
      obtain ⟨rfl, -⟩ := List.cons.inj hp
      rw [show start + totalLength [] = start from rfl, hn] at hfails
      cases hfails
    · obtain ⟨m, rest, rfl, hfills, hrest⟩ := tiles_cons_iff.1 htiles
      obtain rfl : m = n := hfills.length_eq hn
      rw [totalLength_cons, ← Nat.add_assoc] at hfails
      exact ⟨front, e', back, rest, rfl, hrest, ho, hfails⟩
  · rintro ⟨front, e', back, spans, rfl, htiles, ho, hfails⟩
    refine ⟨e :: front, e', back, ⟨start, n⟩ :: spans, rfl,
      tiles_cons_iff.2 ⟨n, spans, rfl, Entry.fills_of_some hn, htiles⟩, ho, ?_⟩
    rwa [totalLength_cons, ← Nat.add_assoc]

/-- If it takes nothing, it is the failing one itself unless it may. -/
theorem failsWithin_cons_of_none
    (hn : e.test.consume (tokens.drop start) = none) :
    FailsWithin (e :: p) tokens start ↔
    (e.optional = true → FailsWithin p tokens start) := by
  constructor
  · rintro ⟨front, e', back, spans, hp, htiles, ho, hfails⟩ hoptional
    obtain ⟨rfl, hp⟩ | ⟨front, rfl, rfl⟩ := List.cons_eq_append_iff.1 hp
    · obtain ⟨rfl, -⟩ := List.cons.inj hp
      rw [hoptional] at ho
      cases ho
    · obtain ⟨m, rest, rfl, hfills, hrest⟩ := tiles_cons_iff.1 htiles
      obtain ⟨rfl, -⟩ : m = 0 ∧ e.optional = true := hfills.of_none hn
      rw [totalLength_cons, Nat.zero_add] at hfails
      exact ⟨front, e', back, rest, rfl, hrest, ho, hfails⟩
  · intro h
    cases ho : e.optional with
    | false => exact ⟨[], e, p, [], rfl, tiles_nil_iff.2 rfl, ho, hn⟩
    | true =>
      obtain ⟨front, e', back, spans, rfl, htiles, ho', hfails⟩ := h ho
      refine ⟨e :: front, e', back, ⟨start, 0⟩ :: spans, rfl,
        tiles_cons_iff.2 ⟨0, spans, rfl, Entry.fills_of_none hn ho, htiles⟩,
        ho', ?_⟩
      rwa [totalLength_cons, Nat.zero_add]

/-- **A match fails where a required entry does.** An optional entry never
makes a match fail, since it may take nothing. -/
theorem matchPartial_eq_none_iff :
    matchPartial p tokens start = none ↔ FailsWithin p tokens start := by
  induction p generalizing start with
  | nil =>
    refine iff_of_false nofun ?_
    rintro ⟨front, e, back, spans, hp, -⟩
    simp at hp
  | cons e p ih =>
    rw [matchPartial_cons]
    cases hn : e.test.consume (tokens.drop start) with
    | some n => rw [failsWithin_cons_of_some hn, ← ih, Option.map_eq_none_iff]
    | none =>
      rw [failsWithin_cons_of_none hn, ← ih]
      dsimp only
      split
      · next ho => exact ⟨fun h _ => h, fun h => h ho⟩
      · next ho => exact iff_of_true rfl fun h => absurd h ho

/-! ## Tables

A table is asked from the front, and the first pattern that matches decides. It
is the earliest in the sense that all patterns in front of it do not match, and
whether a later one would take more is not asked. -/

/-- **The earliest rule of a table whose pattern passes a test**, and what the
test finds. Later rules may pass the test as well, and with other captures;
they do not count. -/
def Rules.Earliest {α : Type} (rules : Rules α)
    (test : Row → Option Captures) (a : α) (caps : Captures) : Prop :=
  ∃ front p back, rules = front ++ (p, a) :: back ∧ test p = some caps ∧
    ∀ rule ∈ front, test rule.1 = none

theorem Rules.findSome?_eq_some_iff {α : Type} {rules : Rules α}
    (test : Row → Option Captures) {a : α} {caps : Captures} :
    (rules.findSome? fun (p, a) => (test p).map fun caps => (a, caps))
      = some (a, caps) ↔
      rules.Earliest test a caps := by
  rw [List.findSome?_eq_some_iff]
  constructor
  · rintro ⟨front, ⟨p, b⟩, back, hrules, hfound, hfront⟩
    obtain ⟨c, hc, heq⟩ := Option.map_eq_some_iff.1 hfound
    obtain ⟨rfl, rfl⟩ := Prod.mk.inj heq
    exact ⟨front, p, back, hrules, hc,
      fun rule hrule => Option.map_eq_none_iff.1 (hfront rule hrule)⟩
  · rintro ⟨front, p, back, hrules, hfound, hfront⟩
    exact ⟨front, (p, a), back, hrules,
      Option.map_eq_some_iff.2 ⟨caps, hfound, rfl⟩,
      fun rule hrule => Option.map_eq_none_iff.2 (hfront rule hrule)⟩

/-- A full match is one that leaves nothing. -/
theorem matchFull_eq_some_iff {caps : Captures} :
    matchFull p tokens start = some caps ↔
      ∃ spans, Tiling p tokens start spans caps ∧
        start + totalLength spans = tokens.length := by
  rw [matchFull, Option.filter_eq_some_iff, matchPartial_eq_some_iff,
    beq_iff_eq]
  constructor
  · rintro ⟨⟨spans, h⟩, hend⟩
    exact ⟨spans, h, h.consumed_eq ▸ hend⟩
  · rintro ⟨spans, h, hend⟩
    exact ⟨⟨spans, h⟩, h.consumed_eq ▸ hend⟩

/-- **A match tiles the tokens with what it captures.** For every pattern,
whatever its entries ask for and its validators answer, and from every
position, be it behind the last token: the walk by positions never asks for
tokens that are not there and finds the same match. The match comes about if
there are spans for its entries, one for each, that follow one another from the
position on; it takes what they have together, which are tokens that are there,
and it records what they hold. It fails if a required entry fails behind the
spans of those before it, and only then. A full match is one whose spans reach
the end, and a table gives the earliest rule that matches. -/
theorem captures_tile (p : Row) (tokens : List Token) (start : Nat) :
    matchFrom p tokens start = .ok (matchPartial p tokens start) ∧
    (∀ caps, matchPartial p tokens start = some caps ↔
      ∃ spans, Tiling p tokens start spans caps) ∧
    (∀ spans, Tiles p tokens start spans →
      start + totalLength spans ≤ max start tokens.length) ∧
    (matchPartial p tokens start = none ↔ FailsWithin p tokens start) ∧
    (∀ caps, matchFull p tokens start = some caps ↔
      ∃ spans, Tiling p tokens start spans caps ∧
        start + totalLength spans = tokens.length) ∧
    ∀ (α : Type) (rules : Rules α) (a : α) (caps : Captures),
      (rules.firstPartial tokens start = some (a, caps) ↔
        rules.Earliest (fun p => matchPartial p tokens start) a caps) ∧
      (rules.firstFull tokens start = some (a, caps) ↔
        rules.Earliest (fun p => matchFull p tokens start) a caps) :=
  ⟨matchFrom_eq p tokens start, fun _ => matchPartial_eq_some_iff,
    fun _ => Tiles.add_totalLength_le, matchPartial_eq_none_iff,
    fun _ => matchFull_eq_some_iff,
    fun _ _ _ _ =>
      ⟨Rules.findSome?_eq_some_iff fun p => matchPartial p tokens start,
        Rules.findSome?_eq_some_iff fun p => matchFull p tokens start⟩⟩

/-- A row for brackets around something, with a name in front of them or not. -/
def bracketsRow : Row :=
  [((Entry.satisfying fun t => t == "f").named "name").orNothing, .token "(",
    (Entry.sequence (upTo ")")).named "inner", .token ")"]

/-- Brackets that have no name, behind another token: the span of the name is
empty, and nothing is recorded for it. -/
theorem captures_tile_brackets :
    Tiles bracketsRow [",", "(", "[", "a", "]", ")"] 1 [⟨1, 0⟩, ⟨1, 1⟩, ⟨2, 3⟩,
      ⟨5, 1⟩] ∧
      1 + totalLength [⟨1, 0⟩, ⟨1, 1⟩, ⟨2, 3⟩, ⟨5, 1⟩] ≤ max 1 6 ∧
      matchFull bracketsRow [",", "(", "[", "a", "]", ")"] 1
        = some ⟨[("inner", ["[", "a", "]"])], 5⟩ := by
  have htiles : Tiles bracketsRow [",", "(", "[", "a", "]", ")"] 1
      [⟨1, 0⟩, ⟨1, 1⟩, ⟨2, 3⟩, ⟨5, 1⟩] :=
    tiles_cons_iff.2 ⟨0, _, rfl, Entry.fills_of_none (by decide) rfl,
      tiles_cons_iff.2 ⟨1, _, rfl, Entry.fills_of_some (by decide),
        tiles_cons_iff.2 ⟨3, _, rfl, Entry.fills_of_some (by decide),
          tiles_cons_iff.2 ⟨1, _, rfl, Entry.fills_of_some (by decide),
            tiles_nil_iff.2 rfl⟩⟩⟩⟩
  obtain ⟨-, -, hbounds, -, hfull, -⟩ :=
    captures_tile bracketsRow [",", "(", "[", "a", "]", ")"] 1
  exact ⟨htiles, hbounds _ htiles, (hfull _).2 ⟨_, ⟨htiles, rfl, rfl⟩, rfl⟩⟩

end StreamScript.Pattern
