import Mathlib.Data.List.Basic
import StreamScript.Expr.Grammar
import StreamScript.Proofs.Brackets

/-!
# Reading one operand

A row of the table of operands records some tokens under keys and leaves the
rest. `Pattern.read` says what, entry by entry, so that a row of known entries
is read by rewriting. The expression comes from the record and from what is
left (`Operand.build`).

`OperandAhead` lists what an operand can be at the front of some tokens, each
form with what has been read inside it. Nothing else is ever read
(`operandAhead_of_readOperand`). In the other direction every form is read,
though not by any row that could match it but by the first: calls come before
bare names, and the classes of tokens that two rows ask for do not meet
(`isIdentifier_eq_false_of_isNumberToken`). What stands in brackets has to be
balanced for that, and not empty, and a name has no bracket behind it.
-/

namespace StreamScript

namespace Pattern

/-! ## Rows

What a row does with some tokens is said by one equation for each kind of
entry: what the rest of the row does, with one more record in front of it.
Rewriting with these equations reads a row whose entries are known, and that is
how every operand is read below.

A run that grows up to a token is the only entry that looks ahead, and its
equation needs something of the tokens. They have to be balanced, so that the
first place where the token could end the run is the one behind them. Read
backwards, the equations say what the tokens were if something was recorded
(`exists_of_read_upTo` and its like). -/

/-- What a row has recorded: the tokens under their keys. -/
abbrev Slots : Type := List (String × List Token)

/-- **What a row records, and what it leaves.** -/
def read (p : Row) (ts : List Token) : Option (Slots × List Token) :=
  (walk p ts).map fun caps => (caps.slots, ts.drop caps.consumed)

/-- One more record in front. -/
def record (key : String) (taken : List Token) (found : Slots × List Token) :
    Slots × List Token :=
  ((key, taken) :: found.1, found.2)

variable {p : Row} {e : Entry} {t t' : Token} {ts : List Token} {n : Nat}
    {key : String}

@[simp] theorem read_nil (ts : List Token) : read [] ts = some ([], ts) := rfl

/-- **An entry that takes some tokens**, and the rest of the row behind them.
What is taken is recorded if the entry has a key. -/
theorem read_cons (h : e.test.consume ts = some n) :
    read (e :: p) ts = (read p (ts.drop n)).map fun found =>
      ((e.key.map fun key => (key, ts.take n)).toList ++ found.1, found.2) := by
  unfold read
  rw [walk, h]
  dsimp only
  rw [Option.map_map, Option.map_map]
  refine congrArg (fun f => Option.map f _) (funext fun caps => ?_)
  show (_, ts.drop (n + caps.consumed)) = (_, (ts.drop n).drop caps.consumed)
  rw [List.drop_drop]

/-- An entry that takes none: the row goes on without it if it may be left out,
and has failed if not. -/
theorem read_cons_of_none (h : e.test.consume ts = none) :
    read (e :: p) ts = if e.optional then read p ts else none := by
  unfold read
  rw [walk, h]
  dsimp only
  split <;> rfl

@[simp] theorem read_token (t : Token) (p : Row) (ts : List Token) :
    read (.token t :: p) ts =
      match ts with
      | [] => none
      | t' :: ts => if t' = t then read p ts else none := by
  cases ts with
  | nil => exact read_cons_of_none rfl
  | cons t' ts =>
    dsimp only
    split
    · next h =>
      have hone : (Entry.token t).test.consume (t' :: ts) = some 1 :=
        if_pos (congrArg some h)
      rw [read_cons hone]
      exact Option.map_id'
    · next h =>
        exact read_cons_of_none (if_neg fun heq => h (Option.some.inj heq))

/-- An entry that asks for one token and records it. The three things asked of
the entry are that it has a key, that it may not be left out, and that it looks
at one token. -/
theorem read_recorded {property : Token → Bool} (hkey : e.key = some key)
    (hrequired : e.optional = false) (hnil : e.test.consume [] = none)
    (hcons : ∀ t ts, e.test.consume (t :: ts) = if property t then some 1
      else none) :
    read (e :: p) ts =
      match ts with
      | [] => none
      | t :: ts =>
        if property t then (read p ts).map (record key [t]) else none := by
  have hnone : ∀ ts, e.test.consume ts = none →
      read (e :: p) ts = none := fun ts h => by
    rw [read_cons_of_none h, hrequired]
    exact if_neg Bool.false_ne_true
  cases ts with
  | nil => exact hnone [] hnil
  | cons t ts =>
    dsimp only
    split
    · next h =>
      rw [read_cons ((hcons t ts).trans (if_pos h)), hkey]
      rfl
    · next h => exact hnone (t :: ts) ((hcons t ts).trans (if_neg h))

@[simp] theorem read_satisfying (property : Token → Bool) (key : String)
    (p : Row) (ts : List Token) :
    read ((Entry.satisfying property).named key :: p) ts =
      match ts with
      | [] => none
      | t :: ts =>
        if property t then (read p ts).map (record key [t]) else none :=
  read_recorded rfl rfl rfl fun _ _ => rfl

/-- A token that has to be one of some, which is recorded. -/
@[simp] theorem read_oneOf (texts : List Token) (key : String) (p : Row)
    (ts : List Token) :
    read ((Entry.oneOf texts).named key :: p) ts =
      match ts with
      | [] => none
      | t :: ts =>
        if texts.contains t then (read p ts).map (record key [t]) else none :=
  read_recorded rfl rfl rfl fun _ _ => rfl

/-- A run that has to be there. How far it goes is decided by its validator and
by nothing behind the row. -/
theorem read_sequence (validator : Validator) (key : String) (p : Row)
    (ts : List Token) :
    read ((Entry.sequence validator).named key :: p) ts =
      match grow validator [] ts with
      | some n => (read p (ts.drop n)).map (record key (ts.take n))
      | none => none := by
  cases h : grow validator [] ts with
  | none => exact read_cons_of_none h
  | some n => exact read_cons h

/-- A run that may be left out. It is not left out if it can be taken, even if
the rest of the row fails then. -/
theorem read_sequence_orNothing (validator : Validator) (key : String) (p : Row)
    (ts : List Token) :
    read (((Entry.sequence validator).named key).orNothing :: p) ts =
      match grow validator [] ts with
      | some n => (read p (ts.drop n)).map (record key (ts.take n))
      | none => read p ts := by
  cases h : grow validator [] ts with
  | none => exact read_cons_of_none h
  | some n => exact read_cons h

/-- A token that is asked for was there. -/
theorem exists_of_read_token {found : Slots × List Token}
    (h : read (.token t :: p) ts = some found) :
    ∃ ts', ts = t :: ts' ∧ read p ts' = some found := by
  rw [read_token] at h
  cases ts with
  | nil => cases h
  | cons t' ts =>
    dsimp only at h
    split at h
    · next heq => exact ⟨ts, by rw [heq], h⟩
    · cases h

/-- If something was recorded of one token, the token was there and had the
property that the entry asks for. -/
theorem exists_of_recorded {property : Token → Bool}
    {found : Slots × List Token} (h : (match ts with
      | [] => none
      | t :: ts =>
        if property t then (read p ts).map (record key [t]) else none)
            = some found) :
    ∃ t ts' found', ts = t :: ts' ∧ property t = true ∧
      read p ts' = some found' ∧
      record key [t] found' = found := by
  cases ts with
  | nil => cases h
  | cons t ts =>
    dsimp only at h
    split at h
    · next ht =>
      obtain ⟨found', hread, hfound⟩ := Option.map_eq_some_iff.1 h
      exact ⟨t, ts, found', rfl, ht, hread, hfound⟩
    · cases h

theorem exists_of_read_satisfying {property : Token → Bool}
    {found : Slots × List Token}
    (h : read ((Entry.satisfying property).named key :: p) ts = some found) :
    ∃ t ts' found', ts = t :: ts' ∧ property t = true ∧
      read p ts' = some found' ∧
      record key [t] found' = found := by
  rw [read_satisfying] at h
  exact exists_of_recorded h

theorem exists_of_read_oneOf {texts : List Token} {found : Slots × List Token}
    (h : read ((Entry.oneOf texts).named key :: p) ts = some found) :
    ∃ t ts' found', ts = t :: ts' ∧ texts.contains t = true ∧
      read p ts' = some found' ∧
      record key [t] found' = found := by
  rw [read_oneOf] at h
  exact exists_of_recorded h

/-- What is recorded up to a closing bracket is not empty, and the bracket is
behind it. A run is never empty, since a validator is asked about it only after
a token has been taken. -/
theorem exists_of_grow (h : grow (upTo t) [] ts = some n)
    {found : Slots × List Token}
    (hread : (read (.token t :: p) (ts.drop n)).map (record key (ts.take n))
      = some found) :
    ∃ inner rest found', ts = inner ++ t :: rest ∧ inner ≠ [] ∧
      read p rest = some found' ∧
      record key inner found' = found := by
  obtain ⟨inner, rest, rfl, hne, rfl, -⟩ := exists_of_grow_upTo h
  rw [List.length_nil, Nat.zero_add, List.drop_left, List.take_left] at hread
  obtain ⟨found', hread, hfound⟩ := Option.map_eq_some_iff.1 hread
  obtain ⟨rest', hrest, hread⟩ := exists_of_read_token hread
  obtain ⟨-, rfl⟩ := List.cons.inj hrest
  exact ⟨inner, rest, found', rfl, hne, hread, hfound⟩

/-- A run up to a closing bracket, and that bracket behind it. Both are taken,
and only the run is recorded. -/
theorem exists_of_read_upTo {found : Slots × List Token}
    (h : read ((Entry.sequence (upTo t)).named key :: .token t :: p) ts
      = some found) :
    ∃ inner rest found', ts = inner ++ t :: rest ∧ inner ≠ [] ∧
      read p rest = some found' ∧
      record key inner found' = found := by
  rw [read_sequence] at h
  split at h
  · next n hn => exact exists_of_grow hn h
  · cases h

/-- The same of a run that may be left out. Then the closing bracket follows at
once. -/
theorem exists_of_read_upTo_orNothing {found : Slots × List Token}
    (h : read (((Entry.sequence (upTo t)).named key).orNothing :: .token t :: p)
      ts = some found) :
    (∃ inner rest found', ts = inner ++ t :: rest ∧ inner ≠ [] ∧
      read p rest = some found' ∧
      record key inner found' = found) ∨
      read (.token t :: p) ts = some found := by
  rw [read_sequence_orNothing] at h
  split at h
  · next n hn => exact .inl (exists_of_grow hn h)
  · exact .inr h

/-- Balanced tokens do not begin with a closing bracket. So a row that asks for
a closing bracket at once does not match, which is how a call with arguments
passes the row for calls without any. -/
theorem read_token_of_balanced {kind : Bracket}
    (ht : Bracket.closed? t = some kind) (hb : Balanced ts) (hne : ts ≠ [])
    (rest : List Token) :
    read (.token t :: p) (ts ++ rest) = none := by
  obtain ⟨t', ts, rfl⟩ := List.exists_cons_of_ne_nil hne
  rw [List.cons_append, read_token]
  refine if_neg ?_
  rintro rfl
  have hnone := hb []
  rw [openAfter_closer ht] at hnone
  cases hnone

/-- What a run has grown over is recorded up to the token it grew up to. -/
theorem read_upTo_of_grow {rest : List Token}
    (h : grow (upTo t) [] (ts ++ t :: rest) = some ts.length) :
    read ((Entry.sequence (upTo t)).named key :: .token t :: p)
      (ts ++ t :: rest)
      = (read p rest).map (record key ts) := by
  rw [read_sequence, h]
  dsimp only
  rw [List.drop_left, List.take_left, read_token]
  dsimp only
  rw [if_pos rfl]

/-- **Balanced tokens are recorded** up to the bracket behind them. -/
theorem read_upTo {kind : Bracket} (ht : Bracket.closed? t = some kind)
    (hb : Balanced ts) (hne : ts ≠ []) (rest : List Token) :
    read ((Entry.sequence (upTo t)).named key :: .token t :: p)
      (ts ++ t :: rest)
      = (read p rest).map (record key ts) :=
  read_upTo_of_grow (hb.grow_upTo ht hne rest)

theorem read_upTo_orNothing {kind : Bracket}
    (ht : Bracket.closed? t = some kind) (hb : Balanced ts) (hne : ts ≠ [])
    (rest : List Token) :
    read (((Entry.sequence (upTo t)).named key).orNothing :: .token t :: p)
      (ts ++ t :: rest)
      = (read p rest).map (record key ts) := by
  rw [read_sequence_orNothing, hb.grow_upTo ht hne]
  dsimp only
  rw [List.drop_left, List.take_left, read_token]
  dsimp only
  rw [if_pos rfl]

/-- **The first row of a table that matches**, with what it records and
leaves. -/
def Rules.read {α : Type} (rules : Rules α) (ts : List Token) :
    Option (α × Slots × List Token) :=
  rules.findSome? fun (p, a) => (Pattern.read p ts).map fun found => (a, found)

/-- Reading by a table in terms of rows is what the table's own function does.
-/
theorem Rules.read_eq {α : Type} (rules : Rules α) (ts : List Token) :
    rules.read ts = (rules.firstPartial ts 0).map fun (a, caps) =>
      (a, caps.slots, ts.drop caps.consumed) := by
  unfold Rules.read Rules.firstPartial
  induction rules with
  | nil => rfl
  | cons rule rules ih =>
    obtain ⟨p, a⟩ := rule
    rw [List.findSome?_cons, List.findSome?_cons, ih]
    unfold Pattern.read matchPartial
    rw [List.drop_zero]
    dsimp only
    cases walk p ts <;> rfl

end Pattern

open Pattern (Slots Rules)

theorem exists_of_map_eq_ok {ε α β : Type} {x : Except ε α} {f : α → β} {b : β}
    (h : x.map f = .ok b) : ∃ a, x = .ok a ∧ f a = b := by
  cases x with
  | error e => cases h
  | ok a => exact ⟨a, rfl, Except.ok.inj h⟩

/-! ## Operands

The parser of operands carries along what it needs to see that it ends: what is
left is shorter. Here only the expression and what is left are looked at.
`Operand.build` is the branch of the parser that belongs to a row, with the
record of the row in the place of the captures.

`OperandAhead` has one constructor for each form. The cases of
`operandAhead_of_readOperand` are the rows of the table; the row of arrays has
an entry that may be left out, and gives two forms. -/

/-- Reads one operand, and yields what follows it. The parser of expressions
goes on with what this leaves. -/
def readOperand (ts : List Token) : Except GrammarError (Expr × List Token) :=
  (parseOperand ts).map fun (e, rest) => (e, rest.1)

/-- **The expression of an operand**, from what its row has recorded and left.
What the rows have recorded under other keys is not looked at. -/
def Operand.build (operand : Operand) (slots : Slots) (rest : List Token) :
    Except GrammarError (Expr × List Token) :=
  let token? (key : String) : Option Token := (slots.lookup key).bind List.head?
  let literal := (token? "lit").getD ""
  let name := (token? "name").getD ""
  match operand with
  | .call =>
    match slots.lookup "args" with
    | none => .ok (.call name [], rest)
    | some slice => (parseList slice).map fun arguments =>
      (.call name arguments, rest)
  | .group =>
    match slots.lookup "inner" with
    | none => .error .expectedExpression
    | some slice => (parseExpr slice).map fun inner => (.group inner, rest)
  | .array =>
    match slots.lookup "items" with
    | none => .ok (.array [], rest)
    | some slice => (parseList slice).map fun items => (.array items, rest)
  | .sign =>
    let op := if token? "op" = some "-" then UnaryOp.negate else .not
    (readOperand rest).map fun (inner, rest) => (.unary op inner, rest)
  | .number =>
    match Number.ofChars? literal.toList with
    | some x => .ok (.number x, rest)
    | none => .error (.invalidNumber literal)
  | .text =>
    match unquote? literal with
    | some s => .ok (.text s, rest)
    | none => .error (.invalidString literal)
  | .truth => .ok (.truth (literal == "true"), rest)
  | .stream => .ok (.stream, rest)
  | .index => .ok (.index, rest)
  | .name => .ok (.name name, rest)

/-- **Reading an operand is the row and what is made of its record.** All
branches of the parser are gone through; they differ from those of
`Operand.build` in nothing but what they carry along. -/
theorem readOperand_of_firstPartial {ts : List Token} {operand : Operand}
    {caps : Pattern.Captures}
    (h : operandRules.firstPartial ts 0 = some (operand, caps)) :
    readOperand ts = operand.build caps.slots (ts.drop caps.consumed) := by
  unfold readOperand
  rw [parseOperand]
  split
  · next h' =>
    rw [h] at h'
    cases h'
  · next operand' caps' h' =>
    obtain ⟨rfl, rfl⟩ := Prod.mk.inj (Option.some.inj (h.symm.trans h'))
    unfold Operand.build
    cases operand with
    | call =>
      dsimp only
      split
      · next hs => rw [show caps.slots.lookup "args" = none from hs]; rfl
      · next slice hs =>
        rw [show caps.slots.lookup "args" = some slice from hs]
        unfold parseList
        dsimp only
        cases parseParts (partsOf slice) <;> rfl
    | group =>
      dsimp only
      split
      · next hs => rw [show caps.slots.lookup "inner" = none from hs]; rfl
      · next slice hs =>
        rw [show caps.slots.lookup "inner" = some slice from hs]
        dsimp only
        cases parseExpr slice <;> rfl
    | array =>
      dsimp only
      split
      · next hs => rw [show caps.slots.lookup "items" = none from hs]; rfl
      · next slice hs =>
        rw [show caps.slots.lookup "items" = some slice from hs]
        unfold parseList
        dsimp only
        cases parseParts (partsOf slice) <;> rfl
    | sign =>
      dsimp only
      unfold readOperand
      cases parseOperand (ts.drop caps.consumed) <;> rfl
    | number =>
      dsimp only
      show Except.map
          _ (match Number.ofChars? ((caps.token? "lit").getD "").toList with
        | some x => _ | none => _)
            = match Number.ofChars? ((caps.token? "lit").getD "").toList with
        | some x => _ | none => _
      cases Number.ofChars? ((caps.token? "lit").getD "").toList <;> rfl
    | text =>
      dsimp only
      show Except.map _ (match unquote? ((caps.token? "lit").getD "") with
        | some x => _ | none => _)
            = match unquote? ((caps.token? "lit").getD "") with
        | some x => _ | none => _
      cases unquote? ((caps.token? "lit").getD "") <;> rfl
    | truth | stream | index | name => rfl

/-- A sign as it is written. -/
def UnaryOp.symbol : UnaryOp → String
  | negate => "-"
  | not => "!"

/-- **An operand at the front of some tokens**, what it reads as, and what
follows it. What stands in brackets has been read on its own, and so has what a
sign stands in front of. What follows is any tokens at all, with one exception
that is not stated here: a name in front of a bracket is read as a call. -/
inductive OperandAhead : List Token → Expr → List Token → Prop
  | callNone {f : Token} {rest : List Token} (hf : isIdentifier f = true) :
      OperandAhead (f :: "(" :: ")" :: rest) (.call f []) rest
  | call {f : Token} {arguments : List Token} {es : List Expr}
      {rest : List Token} (hf : isIdentifier f = true)
      (h : parseList arguments = .ok es) :
      OperandAhead (f :: "(" :: (arguments ++ ")" :: rest)) (.call f es) rest
  | group {inner : List Token} {e : Expr} {rest : List Token}
      (h : parseExpr inner = .ok e) :
      OperandAhead ("(" :: (inner ++ ")" :: rest)) (.group e) rest
  | arrayNone {rest : List Token} :
      OperandAhead ("[" :: "]" :: rest) (.array []) rest
  | array {items : List Token} {es : List Expr} {rest : List Token}
      (h : parseList items = .ok es) :
      OperandAhead ("[" :: (items ++ "]" :: rest)) (.array es) rest
  | sign (op : UnaryOp) {ts : List Token} {e : Expr} {rest : List Token}
      (h : readOperand ts = .ok (e, rest)) :
      OperandAhead (op.symbol :: ts) (.unary op e) rest
  | number {t : Token} {x : Float} {rest : List Token}
      (ht : isNumberToken t = true) (hx : Number.ofChars? t.toList = some x) :
      OperandAhead (t :: rest) (.number x) rest
  | text {t : Token} {s : String} {rest : List Token}
      (ht : isStringToken t = true) (hs : unquote? t = some s) :
      OperandAhead (t :: rest) (.text s) rest
  | truth (b : Bool) {rest : List Token} :
      OperandAhead (toString b :: rest) (.truth b) rest
  | stream {rest : List Token} : OperandAhead ("stream" :: rest) .stream rest
  | index {rest : List Token} : OperandAhead ("index" :: rest) .index rest
  | name {t : Token} {rest : List Token} (ht : isIdentifier t = true) :
      OperandAhead (t :: rest) (.name t) rest

/-- An operand that was read came of a row of the table. Which row it was is
not said, nor that it was the first; for what an operand can be it is enough
that there is one. -/
theorem exists_row_of_readOperand {ts rest : List Token} {e : Expr}
    (h : readOperand ts = .ok (e, rest)) :
    ∃ p operand slots left, (p, operand) ∈ operandRules ∧
      Pattern.read p ts = some (slots, left) ∧
      operand.build slots left = .ok (e, rest) := by
  cases hfirst : operandRules.firstPartial ts 0 with
  | none =>
    unfold readOperand at h
    rw [parseOperand] at h
    split at h
    · split at h <;> cases h
    · next hsome =>
      rw [hfirst] at hsome
      cases hsome
  | some found =>
    obtain ⟨operand, caps⟩ := found
    obtain ⟨p, hmem, hwalk⟩ := Rules.exists_of_firstPartial hfirst
    rw [readOperand_of_firstPartial hfirst] at h
    refine ⟨p, operand, _, _, hmem, ?_, h⟩
    rw [List.drop_zero] at hwalk
    unfold Pattern.read
    rw [hwalk]
    rfl

/-- **All that reading an operand can come to.** Each row is read backwards:
what it has recorded was there, and what was built of it was read before. -/
theorem operandAhead_of_readOperand {ts rest : List Token} {e : Expr}
    (h : readOperand ts = .ok (e, rest)) : OperandAhead ts e rest := by
  obtain ⟨p, operand, slots, left, hmem, hread, hbuild⟩ :=
    exists_row_of_readOperand h
  simp only [operandRules, List.mem_cons, Prod.mk.injEq, List.not_mem_nil,
    or_false] at hmem
  rcases hmem with ⟨rfl, rfl⟩ | ⟨rfl, rfl⟩ | ⟨rfl, rfl⟩ | ⟨rfl, rfl⟩ |
    ⟨rfl, rfl⟩ | ⟨rfl, rfl⟩ | ⟨rfl, rfl⟩ | ⟨rfl, rfl⟩ | ⟨rfl, rfl⟩ |
    ⟨rfl, rfl⟩ | ⟨rfl, rfl⟩
  -- A call without arguments.
  · obtain ⟨f, _, _, rfl, hf, h₁, h₀⟩ := Pattern.exists_of_read_satisfying hread
    obtain ⟨_, rfl, h₂⟩ := Pattern.exists_of_read_token h₁
    obtain ⟨_, rfl, h₃⟩ := Pattern.exists_of_read_token h₂
    cases h₃
    cases h₀
    cases hbuild
    exact .callNone hf
  -- A call with arguments.
  · obtain ⟨f, _, _, rfl, hf, h₁, h₀⟩ := Pattern.exists_of_read_satisfying hread
    obtain ⟨_, rfl, h₂⟩ := Pattern.exists_of_read_token h₁
    obtain ⟨arguments, _, _, rfl, -, h₃, rfl⟩ := Pattern.exists_of_read_upTo h₂
    cases h₃
    cases h₀
    obtain ⟨es, hes, ⟨⟩⟩ := exists_of_map_eq_ok hbuild
    exact .call hf hes
  -- An expression in brackets.
  · obtain ⟨_, rfl, h₁⟩ := Pattern.exists_of_read_token hread
    obtain ⟨inner, _, _, rfl, -, h₂, h₀⟩ := Pattern.exists_of_read_upTo h₁
    cases h₂
    cases h₀
    obtain ⟨x, hx, ⟨⟩⟩ := exists_of_map_eq_ok hbuild
    exact .group hx
  -- An array. Its elements may be left out.
  · obtain ⟨_, rfl, h₁⟩ := Pattern.exists_of_read_token hread
    obtain ⟨items, _, _, rfl, -, h₂, h₀⟩ | h₂ :=
      Pattern.exists_of_read_upTo_orNothing h₁
    · cases h₂
      cases h₀
      obtain ⟨es, hes, ⟨⟩⟩ := exists_of_map_eq_ok hbuild
      exact .array hes
    · obtain ⟨_, rfl, h₃⟩ := Pattern.exists_of_read_token h₂
      cases h₃
      cases hbuild
      exact .arrayNone
  -- A sign.
  · obtain ⟨t, _, _, rfl, ht, h₁, h₀⟩ := Pattern.exists_of_read_oneOf hread
    cases h₁
    cases h₀
    obtain ⟨⟨x, _⟩, hx, ⟨⟩⟩ := exists_of_map_eq_ok hbuild
    obtain rfl | ht := List.mem_cons.1 (List.contains_iff_mem.1 ht)
    · exact .sign .negate hx
    · obtain rfl := List.mem_singleton.1 ht
      exact .sign .not hx
  -- A number.
  · obtain ⟨t, _, _, rfl, ht, h₁, h₀⟩ := Pattern.exists_of_read_satisfying hread
    cases h₁
    cases h₀
    change (match Number.ofChars? t.toList with | some x => _ | none => _)
      = _ at hbuild
    cases hx : Number.ofChars? t.toList with
    | none =>
      rw [hx] at hbuild
      cases hbuild
    | some x =>
      rw [hx] at hbuild
      cases hbuild
      exact .number ht hx
  -- A quoted string.
  · obtain ⟨t, _, _, rfl, ht, h₁, h₀⟩ := Pattern.exists_of_read_satisfying hread
    cases h₁
    cases h₀
    change (match unquote? t with | some x => _ | none => _) = _ at hbuild
    cases hs : unquote? t with
    | none =>
      rw [hs] at hbuild
      cases hbuild
    | some s =>
      rw [hs] at hbuild
      cases hbuild
      exact .text ht hs
  -- A truth value.
  · obtain ⟨t, _, _, rfl, ht, h₁, h₀⟩ := Pattern.exists_of_read_oneOf hread
    cases h₁
    cases h₀
    obtain rfl | ht := List.mem_cons.1 (List.contains_iff_mem.1 ht)
    · cases hbuild
      exact .truth true
    · obtain rfl := List.mem_singleton.1 ht
      cases hbuild
      exact .truth false
  -- The stream.
  · obtain ⟨_, rfl, h₁⟩ := Pattern.exists_of_read_token hread
    cases h₁
    cases hbuild
    exact .stream
  -- The index.
  · obtain ⟨_, rfl, h₁⟩ := Pattern.exists_of_read_token hread
    cases h₁
    cases hbuild
    exact .index
  -- A name.
  · obtain ⟨t, _, _, rfl, ht, h₁, h₀⟩ := Pattern.exists_of_read_satisfying hread
    cases h₁
    cases h₀
    cases hbuild
    exact .name ht

/-! ## Classes of tokens

The rows for numbers, quoted strings and names ask for a token of a class. A
number begins with a digit, a string with a quotation mark, and a name with a
character that begins a word, so that the first character tells them apart. A
token of one class is therefore passed over by the rows for the others. -/

section Classes

variable {t : Token}

/-- A digit begins no word. -/
theorem startsWord_eq_false_of_isDigit {c : Char}
    (h : Number.isDigit c = true) :
    startsWord c = false := by
  simp [Number.isDigit, startsWord, isLetter, Char.le_def,
    UInt32.le_iff_toNat_le, Char.ext_iff, ← UInt32.toNat_inj] at h ⊢
  omega

/-- A number begins with a digit, -/
theorem head?_of_isNumberToken (h : isNumberToken t = true) :
    t.toList.head?.any Number.isDigit = true := by
  simp only [isNumberToken, isNumberText, Bool.and_eq_true] at h
  exact h.1.1.1

/-- a quoted string with a quotation mark, -/
theorem head?_of_isStringToken (h : isStringToken t = true) :
    t.toList.head? = some '"' := by
  simp only [isStringToken, Bool.and_eq_true, beq_iff_eq] at h
  exact h.1.2

/-- and a name with a character that begins a word. -/
theorem head?_of_isIdentifier (h : isIdentifier t = true) :
    t.toList.head?.any startsWord = true := by
  simp only [isIdentifier, isWordToken, isWordText, Bool.and_eq_true] at h
  exact h.1.1

/-- **No token is both a number and a word.** -/
theorem isIdentifier_eq_false_of_isNumberToken (h : isNumberToken t = true) :
    isIdentifier t = false := by
  have hdigit := head?_of_isNumberToken h
  refine Bool.eq_false_iff.2 fun hid => ?_
  have hword := head?_of_isIdentifier hid
  cases hc : t.toList.head? with
  | none =>
    rw [hc] at hword
    cases hword
  | some c =>
    rw [hc, Option.any_some] at hdigit hword
    rw [startsWord_eq_false_of_isDigit hdigit] at hword
    cases hword

/-- A quoted string is neither. -/
theorem isIdentifier_eq_false_of_isStringToken (h : isStringToken t = true) :
    isIdentifier t = false := by
  refine Bool.eq_false_iff.2 fun hid => ?_
  have hword := head?_of_isIdentifier hid
  rw [head?_of_isStringToken h] at hword
  cases hword

/-- Nor is a quoted string a number. -/
theorem isNumberToken_eq_false_of_isStringToken (h : isStringToken t = true) :
    isNumberToken t = false := by
  refine Bool.eq_false_iff.2 fun hnumber => ?_
  have hdigit := head?_of_isNumberToken hnumber
  rw [head?_of_isStringToken h] at hdigit
  cases hdigit

/-- A number token reads as a number. That it does is part of being one: the
class asks for a text that has a value. -/
theorem exists_ofChars?_of_isNumberToken (h : isNumberToken t = true) :
    ∃ x, Number.ofChars? t.toList = some x := by
  simp only [isNumberToken, isNumberText, Bool.and_eq_true] at h
  obtain ⟨literal, hliteral⟩ := Option.isSome_iff_exists.1 h.2
  exact ⟨literal.value, by rw [Number.ofChars?, hliteral]; rfl⟩

/-- A quoted string stands for a text. -/
theorem exists_unquote?_of_isStringToken (h : isStringToken t = true) :
    ∃ s, unquote? t = some s := by
  simp only [isStringToken, Bool.and_eq_true, beq_iff_eq,
    decide_eq_true_eq] at h
  obtain ⟨⟨hlength, hhead⟩, hlast⟩ := h
  unfold unquote?
  cases hcs : t.toList with
  | nil =>
    rw [hcs] at hhead
    cases hhead
  | cons c inside =>
    rw [hcs] at hhead hlast hlength
    obtain rfl := Option.some.inj hhead
    -- The quote at the end is not the one at the beginning.
    have hne : inside ≠ [] := by
      rintro rfl
      exact absurd hlength (by decide)
    rw [List.getLast?_cons_of_ne_nil hne] at hlast
    exact ⟨_, if_pos hlast⟩

end Classes

/-! ## Operands that are read

There is a lemma for each form. The rows before the right one are excluded by
the first token, or by the second where a name could be a call, and the right
row is rewritten entry by entry. What stands in brackets was read on its own,
and so it is balanced, which is what lets the run find the closing bracket. -/

section Read

variable {t f : Token} {inner ts rest : List Token} {e : Expr} {es : List Expr}

/-- An operand is built from what the first row that matches has recorded. -/
theorem readOperand_of_read {left : List Token} {operand : Operand}
    {slots : Slots} (h : operandRules.read ts = some (operand, slots, left)) :
    readOperand ts = operand.build slots left := by
  rw [Rules.read_eq] at h
  obtain ⟨⟨operand', caps⟩, hfirst, ⟨⟩⟩ := Option.map_eq_some_iff.1 h
  exact readOperand_of_firstPartial hfirst

/-- A call without arguments. The brackets stand next to each other. -/
theorem readOperand_callNone (hf : isIdentifier f = true) :
    readOperand (f :: "(" :: ")" :: rest) = .ok (.call f [], rest) := by
  have hread : operandRules.read (f :: "(" :: ")" :: rest)
      = some (.call, [("name", [f])], rest) := by
    simp [operandRules, Rules.read, hf, Pattern.record]
  exact readOperand_of_read hread

/-- A call with arguments. One without any is taken by the row before this one.
-/
theorem readOperand_call (hf : isIdentifier f = true)
    (hb : Pattern.Balanced inner) (hne : inner ≠ [])
    (h : parseList inner = .ok es) :
    readOperand (f :: "(" :: (inner ++ ")" :: rest))
    = .ok (.call f es, rest) := by
  have hclosed : Bracket.closed? ")" = some .round := by decide
  have hread : operandRules.read (f :: "(" :: (inner ++ ")" :: rest))
      = some (.call, [("name", [f]), ("args", inner)], rest) := by
    have hfirst :=
      Pattern.read_token_of_balanced (p := []) hclosed hb hne (")" :: rest)
    simp [operandRules, Rules.read, hf, hfirst,
      Pattern.read_upTo hclosed hb hne, Pattern.record]
  rw [readOperand_of_read hread]
  show (parseList inner).map _ = _
  rw [h]
  rfl

/-- An expression in brackets. What is in them is balanced and is read on its
own. -/
theorem readOperand_group (hb : Pattern.Balanced inner) (hne : inner ≠ [])
    (h : parseExpr inner = .ok e) :
    readOperand ("(" :: (inner ++ ")" :: rest)) = .ok (.group e, rest) := by
  have hclosed : Bracket.closed? ")" = some .round := by decide
  have hread : operandRules.read ("(" :: (inner ++ ")" :: rest))
      = some (.group, [("inner", inner)], rest) := by
    have hid : isIdentifier "(" = false := by decide
    simp [operandRules, Rules.read, hid, Pattern.read_upTo hclosed hb hne,
      Pattern.record]
  rw [readOperand_of_read hread]
  show (parseExpr inner).map _ = _
  rw [h]
  rfl

/-- An array without elements is read by the row for arrays, whose run may be
left out. -/
theorem readOperand_arrayNone :
    readOperand ("[" :: "]" :: rest) = .ok (.array [], rest) := by
  have hread :
      operandRules.read ("[" :: "]" :: rest) = some (.array, [], rest) := by
    have hid : isIdentifier "[" = false := by decide
    have hclosed : Bracket.closed? "]" = some .square := by decide
    simp [operandRules, Rules.read, hid, Pattern.read_sequence_orNothing,
      Pattern.grow_closer hclosed]
  exact readOperand_of_read hread

/-- An array with elements, which are read as a list of expressions. -/
theorem readOperand_array (hb : Pattern.Balanced inner) (hne : inner ≠ [])
    (h : parseList inner = .ok es) :
    readOperand ("[" :: (inner ++ "]" :: rest)) = .ok (.array es, rest) := by
  have hclosed : Bracket.closed? "]" = some .square := by decide
  have hread : operandRules.read ("[" :: (inner ++ "]" :: rest))
      = some (.array, [("items", inner)], rest) := by
    have hid : isIdentifier "[" = false := by decide
    simp [operandRules, Rules.read, hid,
      Pattern.read_upTo_orNothing hclosed hb hne, Pattern.record]
  rw [readOperand_of_read hread]
  show (parseList inner).map _ = _
  rw [h]
  rfl

/-- A sign and what it stands in front of, which is read by the same parser
again. A sign may stand in front of a sign, so what follows it is again an
operand and not something smaller. -/
theorem readOperand_sign (op : UnaryOp) (h : readOperand ts = .ok (e, rest)) :
    readOperand (op.symbol :: ts) = .ok (.unary op e, rest) := by
  have hread : operandRules.read (op.symbol :: ts)
      = some (.sign, [("op", [op.symbol])], ts) := by
    cases op with
    | negate =>
      have hid : isIdentifier "-" = false := by decide
      simp [operandRules, Rules.read, UnaryOp.symbol, hid, Pattern.record]
    | not =>
      have hid : isIdentifier "!" = false := by decide
      simp [operandRules, Rules.read, UnaryOp.symbol, hid, Pattern.record]
  rw [readOperand_of_read hread]
  cases op <;>
  · show (readOperand ts).map _ = _
    rw [h]
    rfl

/-- A number. Its token begins with a digit, and so no row for words takes it.
-/
theorem readOperand_number {x : Float} (ht : isNumberToken t = true)
    (hx : Number.ofChars? t.toList = some x) :
    readOperand (t :: rest) = .ok (.number x, rest) := by
  have hread :
      operandRules.read (t :: rest) = some (.number, [("lit", [t])], rest) := by
    have hid := isIdentifier_eq_false_of_isNumberToken ht
    have hne : ∀ s, isNumberToken s = false → t ≠ s := fun s hs heq => by
      rw [heq, hs] at ht
      cases ht
    simp [operandRules, Rules.read, hid, hne "(" (by decide),
      hne "[" (by decide), hne "-" (by decide), hne "!" (by decide), ht,
      Pattern.record]
  rw [readOperand_of_read hread]
  show (match Number.ofChars? t.toList with | some x => _ | none => _) = _
  rw [hx]

/-- A quoted string. Its token begins with a quote, which no other class does.
-/
theorem readOperand_text {s : String} (ht : isStringToken t = true)
    (hs : unquote? t = some s) :
    readOperand (t :: rest) = .ok (.text s, rest) := by
  have hread :
      operandRules.read (t :: rest) = some (.text, [("lit", [t])], rest) := by
    have hid := isIdentifier_eq_false_of_isStringToken ht
    have hnumber := isNumberToken_eq_false_of_isStringToken ht
    have hne : ∀ s, isStringToken s = false → t ≠ s := fun s hs heq => by
      rw [heq, hs] at ht
      cases ht
    simp [operandRules, Rules.read, hid, hnumber, hne "(" (by decide),
      hne "[" (by decide), hne "-" (by decide), hne "!" (by decide), ht,
      Pattern.record]
  rw [readOperand_of_read hread]
  show (match unquote? t with | some s => _ | none => _) = _
  rw [hs]

/-- The words for truth values are reserved, so that no earlier row takes
them. -/
theorem readOperand_truth (b : Bool) :
    readOperand (toString b :: rest) = .ok (.truth b, rest) := by
  have hread : operandRules.read (toString b :: rest)
      = some (.truth, [("lit", [toString b])], rest) := by
    have hid : isIdentifier (toString b) = false := by cases b <;> decide
    have hnumber : isNumberToken (toString b) = false := by cases b <;> decide
    have htext : isStringToken (toString b) = false := by cases b <;> decide
    have htrue : toString true = "true" := rfl
    have hfalse : toString false = "false" := rfl
    cases b <;> simp_all [operandRules, Rules.read, Pattern.record]
  rw [readOperand_of_read hread]
  cases b <;> rfl

/-- The words for the stream and for the index are no names. -/
theorem readOperand_stream :
    readOperand ("stream" :: rest) = .ok (.stream, rest) := by
  have hread :
      operandRules.read ("stream" :: rest) = some (.stream, [], rest) := by
    have hid : isIdentifier "stream" = false := by decide
    have hnumber : isNumberToken "stream" = false := by decide
    have htext : isStringToken "stream" = false := by decide
    simp [operandRules, Rules.read, hid, hnumber, htext]
  exact readOperand_of_read hread

theorem readOperand_index :
    readOperand ("index" :: rest) = .ok (.index, rest) := by
  have hread :
      operandRules.read ("index" :: rest) = some (.index, [], rest) := by
    have hid : isIdentifier "index" = false := by decide
    have hnumber : isNumberToken "index" = false := by decide
    have htext : isStringToken "index" = false := by decide
    simp [operandRules, Rules.read, hid, hnumber, htext]
  exact readOperand_of_read hread

/-- A name is only a name if no bracket follows. The row of names is the last,
so all others have to be passed: a name is no literal, no bracket, and none of
the words that have rows of their own. -/
theorem readOperand_name (ht : isIdentifier t = true)
    (hrest : rest.head? ≠ some "(") :
    readOperand (t :: rest) = .ok (.name t, rest) := by
  have hread :
      operandRules.read (t :: rest) = some (.name, [("name", [t])], rest) := by
    have hnumber : isNumberToken t = false := by
      refine Bool.eq_false_iff.2 fun hnumber => ?_
      rw [isIdentifier_eq_false_of_isNumberToken hnumber] at ht
      cases ht
    have htext : isStringToken t = false := by
      refine Bool.eq_false_iff.2 fun htext => ?_
      rw [isIdentifier_eq_false_of_isStringToken htext] at ht
      cases ht
    have hne : ∀ s, isIdentifier s = false → t ≠ s := fun s hs heq => by
      rw [heq, hs] at ht
      cases ht
    have hbracket : ∀ p, Pattern.read (.token "(" :: p) rest = none := by
      intro p
      cases rest with
      | nil => exact Pattern.read_token "(" p []
      | cons t' ts =>
        rw [Pattern.read_token]
        exact if_neg fun heq => hrest (congrArg some heq)
    have htoken : ∀ s p, isIdentifier s = false →
        Pattern.read (.token s :: p) (t :: rest) = none := fun s p hs =>
      (Pattern.read_token s p (t :: rest)).trans (if_neg (hne s hs))
    simp [-Pattern.read_token, operandRules, Rules.read, ht, hnumber, htext,
      hbracket, htoken "(" _ (by decide), htoken "[" _ (by decide),
      htoken "stream" _ (by decide),
      htoken "index" _ (by decide), hne "-" (by decide), hne "!" (by decide),
      hne "true" (by decide), hne "false" (by decide), Pattern.record]
  exact readOperand_of_read hread

end Read

end StreamScript
