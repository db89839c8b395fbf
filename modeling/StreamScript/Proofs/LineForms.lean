import StreamScript.Proofs.ScopeForms

/-!
# The forms of a line

A line is read by a table that does not go back: the first row that takes the
whole line is taken for good, whatever becomes of its expressions. A chain is a
run up to `>>` and then split again. The rows are told apart by what stands in
them, which is what `Derives.not_mem` is for.

What a line may be is said without any table (`LineForm.Written`), and it is
read so and only so (`parseStatement_iff_written`). In particular a scope is
the same scope on a line of its own, at the end of a chain and behind the arrow
of a store.

The two directions need different things. That what is read is written as
something is a matter of the row that has matched, and of what its record says.
That what is written is read needs more: the rows before the right one must not
match, and a chain must come apart again where it was put together.
-/

namespace StreamScript

open Pattern (Entry Slots Rules Row Sealed splitTopLevel)

/-! ## How lines are written

Every form of a line is a constructor, with the tokens that it is written in as
an index. What the parts of a line are is said by the readers of the parts, so
that an expression in a line is whatever reads as an expression on its own;
about the line nothing is said but how its parts stand together.

Three forms end in a scope or may do so, and all three refer to the same
relation for it. That a scope is read alike in the three places comes from
there. -/

/-- The last part of a chain as it is written. What it ends with decides what
the chain does: an expression leaves a value, and a scope is opened on the
value of what stands in front of it. -/
inductive ChainEnd.Written : ChainEnd → List Token → Prop
  | expr {ts : List Token} {e : Expr} (h : parseExpr ts = .ok e) :
      Written (.expr e) ts
  | scope {ts : List Token} {s : ScopeForm} (h : s.Written ts) :
      Written (.scope s) ts

/-- The tokens that a line uses to store what is behind them. They do the same,
so a line may be written with either of them. -/
def arrows : List Token :=
  ["<<", ":="]

/-- Parts with the arrow of a chain between them. It undoes what splitting at
the arrow does, if the parts do not have the arrow at top level. -/
def joinChain (parts : List (List Token)) : List Token :=
  List.intercalate [">>"] parts

/-- **A line as it is written.** The name of a store and those of parameters
are identifiers, and a definition has at least the brackets. A chain has a head
and a last part, with expressions between them or not. -/
inductive LineForm.Written : LineForm → List Token → Prop
  | exit : Written (.action .exit) ["exit"]
  | function {name : Token} {params : List Token}
      (hname : isIdentifier name = true)
      (hparams : ∀ p ∈ params, isIdentifier p = true) :
      Written (.function ⟨name, params⟩)
        ("function" :: name :: "(" :: (params.intersperse "," ++ [")"]))
  | storeScope {name arrow : Token} {ts : List Token} {s : ScopeForm}
      (hname : isIdentifier name = true) (harrow : arrow ∈ arrows)
      (h : s.Written ts) :
      Written (.action (.storeScope name s)) (name :: arrow :: ts)
  | store {name arrow : Token} {ts : List Token} {e : Expr}
      (hname : isIdentifier name = true) (harrow : arrow ∈ arrows)
      (h : parseExpr ts = .ok e) :
      Written (.action (.store name e)) (name :: arrow :: ts)
  | scope {ts : List Token} {s : ScopeForm} (h : s.Written ts) :
      Written (.action (.scope s)) ts
  | chain {head : List Token} {parts : List (List Token)} {ts : List Token}
      {e : Expr} {middle : List Expr} {last : ChainEnd}
      (hhead : parseExpr head = .ok e)
      (hparts : List.Forall₂ (fun part e => parseExpr part = .ok e) parts
        middle) (hlast : last.Written ts) :
      Written (.action (.chain e middle last))
      (joinChain (head :: parts ++ [ts]))
  | expr {ts : List Token} {e : Expr} (h : parseExpr ts = .ok e) :
      Written (.action (.eval e)) ts

/-! ## Parameters and chains

Two forms have lists in them. Parameters are split at commas, and since each is
a single token there is nothing to be balanced: the list is the parameters with
commas between them. The segments of a chain are read from the front, each but
the last as an expression, and the last as a scope if it has the shape of one.
-/

section Parts

variable {ts : List Token} {params : List Token} {middle : List Expr}
  {last : ChainEnd} {segments : List (List Token)}

/-- Single tokens with a separator between them are the list that has the
separator between its members. -/
theorem intercalate_singletons (sep : Token) (ts : List Token) :
    List.intercalate [sep] (ts.map ([·])) = ts.intersperse sep := by
  induction ts with
  | nil => rfl
  | cons t ts ih =>
    cases ts with
    | nil => rfl
    | cons t' ts =>
      rw [List.map_cons, Pattern.intercalate_cons _ (by simp), ih]
      rfl

/-- The parts between commas are read as parameters one by one, and a part that
is no identifier spoils the list. -/
theorem mapM_paramOf?_eq_some_iff {parts : List (List Token)} :
    parts.mapM paramOf? = some params ↔
      parts = params.map ([·]) ∧ ∀ p ∈ params, isIdentifier p = true := by
  have hone : ∀ {part p}, paramOf? part = some p ↔ part = [p] ∧
      isIdentifier p = true := by
    intro part p
    unfold paramOf?
    split
    · next t =>
      split
      · next ht =>
        constructor
        · rintro ⟨⟩
          exact ⟨rfl, ht⟩
        · rintro ⟨⟨⟩, -⟩
          rfl
      · next ht =>
        refine iff_of_false nofun ?_
        rintro ⟨⟨⟩, hp⟩
        exact ht hp
    · next hne => exact iff_of_false nofun fun h => hne p h.1
  induction parts generalizing params with
  | nil =>
    constructor
    · rintro ⟨⟩
      exact ⟨rfl, nofun⟩
    · rintro ⟨hparts, -⟩
      rw [List.map_eq_nil_iff.1 hparts.symm]
      rfl
  | cons part parts ih =>
    rw [List.mapM_cons]
    simp only [Option.bind_eq_bind, Option.bind_eq_some_iff, hone, ih]
    constructor
    · rintro ⟨p, ⟨rfl, hp⟩, params, ⟨rfl, hparams⟩, ⟨⟩⟩
      exact ⟨rfl, List.forall_mem_cons.2 ⟨hp, hparams⟩⟩
    · rintro ⟨hparts, hparams⟩
      cases params with
      | nil => cases hparts
      | cons p params =>
        obtain ⟨rfl, rfl⟩ := List.cons.inj hparts
        obtain ⟨hp, hparams⟩ := List.forall_mem_cons.1 hparams
        exact ⟨p, ⟨rfl, hp⟩, params, ⟨rfl, hparams⟩, rfl⟩

/-- **Parameters are identifiers with commas between them.** There is at least
one, since splitting nothing gives a part without tokens, which is no
identifier. Where a definition has nothing between its brackets, nothing is
split. -/
theorem parseParams_eq_ok_iff {name : String} :
    parseParams name ts = .ok params ↔
      params ≠ [] ∧ ts = params.intersperse "," ∧ ∀ p ∈ params,
      isIdentifier p = true := by
  have hok : parseParams name ts = .ok params ↔
      (splitTopLevel "," ts).mapM paramOf? = some params := by
    unfold parseParams
    cases (splitTopLevel "," ts).mapM paramOf? with
    | none => exact iff_of_false nofun nofun
    | some found => simp
  rw [hok, mapM_paramOf?_eq_some_iff]
  constructor
  · rintro ⟨hparts, hparams⟩
    refine ⟨?_, ?_, hparams⟩
    · rintro rfl
      exact Pattern.splitFrom_ne_nil "," 0 [] ts hparts
    · rw [← intercalate_singletons, ← hparts, Pattern.intercalate_splitTopLevel]
  · rintro ⟨hne, rfl, hparams⟩
    refine ⟨?_, hparams⟩
    rw [← intercalate_singletons]
    refine Pattern.splitTopLevel_intercalate (by simpa using hne) (by decide)
      (by decide) ?_
    intro part hpart
    obtain ⟨p, hp, rfl⟩ := List.mem_map.1 hpart
    exact (plain_of_class (hparams p hp) (by decide)).whole.sealed

/-- What a chain ends with is not nothing: neither an expression nor a scope is
written without a token. -/
theorem ChainEnd.Written.ne_nil (h : last.Written ts) : ts ≠ [] := by
  cases h with
  | expr h => exact ne_nil_of_parseExpr h
  | scope h => exact h.ne_nil

/-- What a chain ends with is not cut in two: no arrow stands in it outside
brackets. -/
theorem ChainEnd.Written.sealed (h : last.Written ts) : Sealed ">>" 0 ts := by
  cases h with
  | expr h => exact sealed_of_parseExpr h (by decide)
  | scope h => exact h.sealed

/-- The last segment. Its shape decides how it is read, and if it is read it is
written as what it reads as: a scope has the shape of one, and an expression
has not. It is the only segment that may be a scope. -/
theorem parseSegments_singleton :
    parseSegments [ts] = .ok (middle, last) ↔ middle = [] ∧
      last.Written ts := by
  constructor
  · intro h
    rw [parseSegments.eq_def] at h
    dsimp only at h
    split at h
    · cases h
    · cases hscope : parseScope ts with
      | none =>
        rw [hscope] at h
        cases he : parseExpr ts with
        | error _ =>
          rw [he] at h
          cases h
        | ok e =>
          rw [he] at h
          cases h
          exact ⟨rfl, .expr he⟩
      | some found =>
        rw [hscope] at h
        cases found with
        | error _ => cases h
        | ok s =>
          cases h
          exact ⟨rfl, .scope (parseScope_eq_some_ok_iff.1 hscope)⟩
  · rintro ⟨rfl, hlast⟩
    rw [parseSegments.eq_def]
    dsimp only
    rw [if_neg (by simpa using hlast.ne_nil)]
    cases hlast with
    | expr h =>
      rw [parseScope_of_parseExpr h]
      dsimp only
      rw [h]
      rfl
    | scope h =>
      rw [h.parseScope]
      rfl

/-- A segment that is not the last. It has to be an expression, also where it
looks like a scope. The table of scopes is tried on it nevertheless, and where
a row of it matches the line is refused. -/
theorem parseSegments_cons (hne : segments ≠ []) :
    parseSegments (ts :: segments) = .ok (middle, last) ↔
      ∃ e middle', parseExpr ts = .ok e ∧
        parseSegments segments = .ok (middle', last) ∧
        middle = e :: middle' := by
  obtain ⟨segment, segments, rfl⟩ := List.exists_cons_of_ne_nil hne
  constructor
  · intro h
    rw [parseSegments.eq_def] at h
    dsimp only at h
    split at h
    · cases h
    · cases hscope : parseScope ts with
      | some found =>
        rw [hscope] at h
        cases h
      | none =>
        rw [hscope] at h
        cases he : parseExpr ts with
        | error _ =>
          rw [he] at h
          cases h
        | ok e =>
          rw [he] at h
          cases hrest : parseSegments (segment :: segments) with
          | error _ =>
            rw [hrest] at h
            cases h
          | ok found =>
            rw [hrest] at h
            cases h
            exact ⟨e, found.1, rfl, rfl, rfl⟩
  · rintro ⟨e, middle', he, hrest, rfl⟩
    rw [parseSegments.eq_def]
    dsimp only
    rw [if_neg (by simpa using ne_nil_of_parseExpr he),
      parseScope_of_parseExpr he]
    dsimp only
    rw [he, hrest]
    rfl

/-- **The segments behind the head** are expressions, and the last may be a
scope. By induction on the segments, with the last one as the base. -/
theorem parseSegments_eq_ok_iff :
    parseSegments segments = .ok (middle, last) ↔
      ∃ parts ts, segments = parts ++ [ts] ∧
        List.Forall₂ (fun part e => parseExpr part = .ok e) parts middle ∧
        last.Written ts := by
  induction segments generalizing middle with
  | nil =>
    refine iff_of_false nofun ?_
    rintro ⟨parts, ts, hsegments, -⟩
    exact List.append_ne_nil_of_right_ne_nil parts (List.cons_ne_nil ts [])
      hsegments.symm
  | cons segment segments ih =>
    cases segments with
    | nil =>
      rw [parseSegments_singleton]
      constructor
      · rintro ⟨rfl, hlast⟩
        exact ⟨[], segment, rfl, .nil, hlast⟩
      · rintro ⟨parts, ts, hsegments, hparts, hlast⟩
        cases hparts with
        | nil =>
          cases hsegments
          exact ⟨rfl, hlast⟩
        | cons => simp at hsegments
    | cons segment' segments =>
      rw [parseSegments_cons (List.cons_ne_nil segment' segments)]
      simp only [ih]
      constructor
      · rintro ⟨e, middle', he, ⟨parts, ts, hsegments, hparts, hlast⟩, rfl⟩
        exact ⟨segment :: parts, ts, by
          rw [hsegments]; rfl, .cons he hparts, hlast⟩
      · rintro ⟨parts, ts, hsegments, hparts, hlast⟩
        cases hparts with
        | nil => cases hsegments
        | @cons part e parts middle' he hparts =>
          obtain ⟨rfl, hrest⟩ := List.cons.inj hsegments
          exact ⟨e, middle', he, ⟨parts, ts, hrest, hparts, hlast⟩, rfl⟩

end Parts

/-! ## Lines that are read

Reading a line is two steps, the table and what is made of the record of its
row (`LineForm.build`). The first theorem goes from the end to the beginning: a
line that was read came of some row, so it has the tokens that the row asks
for, and what was recorded was read as something. From there its form as it is
written can be put together.

For the other direction the rows are gone through in order. Words of the
grammar are no identifiers, so `exit` and `function` begin no store. A token
that an early row asks for is in no expression, so an expression passes all the
rows that ask for one. And neither an expression nor a chain has the shape that
the row of scopes asks for. -/

/-- **The line of what a row has recorded.** These are the branches of
`parseStatement`, with the record of the row in the place of the captures; a
key that the row has not recorded reads as nothing. -/
def LineForm.build (form : StatementForm) (slots : Slots) :
    Except GrammarError LineForm :=
  let name := ((slots.lookup "name").bind List.head?).getD ""
  let slot (key : String) := (slots.lookup key).getD []
  match form with
  | .exit => .ok (.action .exit)
  | .function =>
    ((slots.lookup "params").elim (.ok []) (parseParams name)).map fun params =>
      .function ⟨name, params⟩
  | .storeScope => (requireScope (slot "scope")).map fun s =>
    .action (.storeScope name s)
  | .store => (parseExpr (slot "expr")).map fun e => .action (.store name e)
  | .scope => (requireScope (slot "scope")).map fun s => .action (.scope s)
  | .chain => do
    let head ← parseExpr (slot "head")
    let (middle, last) ← parseSegments (splitTopLevel ">>" (slot "tail"))
    return .action (.chain head middle last)
  | .expr => (parseExpr (slot "expr")).map fun e => .action (.eval e)

/-- A statement is what the first row that matches the whole line makes of its
record. -/
theorem parseStatement_eq (ts : List Token) :
    parseStatement ts = (statementRules.readWhole ts).elim (.error .noForm)
      fun (form, slots) =>
      LineForm.build form slots := by
  rw [Rules.readWhole_eq]
  unfold parseStatement
  cases statementRules.firstFull ts 0 with
  | none => rfl
  | some found =>
    obtain ⟨form, caps⟩ := found
    have hget : ∀ key, caps.get? key = caps.slots.lookup key := fun _ => rfl
    cases form with
    | function =>
      dsimp only [Option.map_some, Option.elim_some, LineForm.build]
      rw [hget]
      cases caps.slots.lookup "params" <;> rfl
    | _ => rfl

section ReadLine

variable {ts : List Token} {k : LineForm}

/-- The row of scopes takes any line that looks like a scope, and records all
of it. -/
theorem read_scope (ts : List Token) :
    Pattern.read [(Entry.sequence scopeShape).named "scope"] ts
      = if isScopeForm ts then some ([("scope", ts)], []) else none :=
  Pattern.read_sequence_end grow_scopeShape "scope" ts

/-- A chain is its first part, an arrow, and the chain of the other parts. -/
theorem joinChain_cons (head : List Token) (parts : List (List Token))
    (ts : List Token) :
    joinChain (head :: parts ++ [ts])
    = head ++ ">>" :: joinChain (parts ++ [ts]) :=
  Pattern.intercalate_cons head
    (List.append_ne_nil_of_right_ne_nil parts (List.cons_ne_nil ts []))

/-- The row of chains builds chains. Its record has the tokens up to the first
arrow and those behind it, and these are split once more. -/
theorem build_chain_eq_ok_iff {head tail : List Token} :
    LineForm.build .chain [("head", head), ("tail", tail)] = .ok k ↔
      ∃ e middle last, parseExpr head = .ok e ∧
        parseSegments (splitTopLevel ">>" tail) = .ok (middle, last) ∧
        k = .action (.chain e middle last) := by
  have hbuild : LineForm.build .chain [("head", head), ("tail", tail)] = (do
      let head ← parseExpr head
      let (middle, last) ← parseSegments (splitTopLevel ">>" tail)
      return .action (.chain head middle last)) := rfl
  rw [hbuild]
  cases parseExpr head with
  | error _ =>
    refine iff_of_false nofun ?_
    rintro ⟨_, _, _, ⟨⟩, _⟩
  | ok e =>
    cases parseSegments (splitTopLevel ">>" tail) with
    | error _ =>
      refine iff_of_false nofun ?_
      rintro ⟨_, _, _, -, ⟨⟩, _⟩
    | ok found =>
      constructor
      · rintro ⟨⟩
        exact ⟨e, found.1, found.2, rfl, rfl, rfl⟩
      · rintro ⟨_, _, _, ⟨⟩, ⟨⟩, rfl⟩
        rfl

/-- **All that reading a line can come to.** There is a case for every row of
the table. -/
theorem written_of_parseStatement (h : parseStatement ts = .ok k) :
    k.Written ts := by
  rw [parseStatement_eq] at h
  cases hrow : statementRules.readWhole ts with
  | none =>
    rw [hrow] at h
    cases h
  | some found =>
    obtain ⟨form, slots⟩ := found
    rw [hrow, Option.elim_some] at h
    dsimp only at h
    obtain ⟨p, hmem, hread⟩ := Rules.exists_of_readWhole hrow
    simp only [statementRules, List.mem_cons, Prod.mk.injEq, List.not_mem_nil,
      or_false] at hmem
    obtain ⟨rfl, rfl⟩ | ⟨rfl, rfl⟩ | ⟨rfl, rfl⟩ | ⟨rfl, rfl⟩ | ⟨rfl, rfl⟩ |
      ⟨rfl, rfl⟩ | ⟨rfl, rfl⟩ := hmem
    -- `exit`, and nothing behind it.
    · obtain ⟨_, rfl, h₁⟩ := Pattern.exists_of_read_token hread
      cases h₁
      cases h
      exact .exit
    -- A definition of a function, with parameters or without.
    · obtain ⟨_, rfl, h₁⟩ := Pattern.exists_of_read_token hread
      obtain ⟨name, _, _, rfl, hname, h₂, h₀⟩ :=
        Pattern.exists_of_read_satisfying h₁
      obtain ⟨_, rfl, h₃⟩ := Pattern.exists_of_read_token h₂
      obtain ⟨inner, _, _, rfl, -, h₄, rfl⟩ | h₃ :=
        Pattern.exists_of_read_upTo_orNothing h₃
      · cases h₄
        cases h₀
        obtain ⟨params, hparams, rfl⟩ := exists_of_map_eq_ok h
        obtain ⟨-, rfl, hid⟩ := parseParams_eq_ok_iff.1 hparams
        exact .function hname hid
      · obtain ⟨_, rfl, h₄⟩ := Pattern.exists_of_read_token h₃
        cases h₄
        cases h₀
        cases h
        exact .function hname nofun
    -- A store of a scope.
    · obtain ⟨name, _, _, rfl, hname, h₁, h₀⟩ :=
        Pattern.exists_of_read_satisfying hread
      obtain ⟨arrow, ts, rfl, harrow, h₂⟩ :=
        Pattern.exists_of_read_oneOf_unnamed h₁
      rw [read_scope] at h₂
      split at h₂
      · cases h₂
        cases h₀
        obtain ⟨s, hs, rfl⟩ := exists_of_map_eq_ok h
        exact .storeScope hname harrow (requireScope_eq_ok_iff.1 hs)
      · cases h₂
    -- A store of an expression.
    · obtain ⟨name, _, _, rfl, hname, h₁, h₀⟩ :=
        Pattern.exists_of_read_satisfying hread
      obtain ⟨arrow, ts, rfl, harrow, h₂⟩ :=
        Pattern.exists_of_read_oneOf_unnamed h₁
      obtain ⟨-, ⟨⟩⟩ := Pattern.exists_of_read_rest h₂
      cases h₀
      obtain ⟨e, he, rfl⟩ := exists_of_map_eq_ok h
      exact .store hname harrow he
    -- A scope.
    · rw [read_scope] at hread
      split at hread
      · cases hread
        obtain ⟨s, hs, rfl⟩ := exists_of_map_eq_ok h
        exact .scope (requireScope_eq_ok_iff.1 hs)
      · cases hread
    -- A chain. Its tail is split again, and put together it is the tail.
    · obtain ⟨head, tail, _, rfl, -, h₁, h₀⟩ :=
        Pattern.exists_of_read_upTo hread
      obtain ⟨-, ⟨⟩⟩ := Pattern.exists_of_read_rest h₁
      cases h₀
      obtain ⟨e, middle, last, hhead, htail, rfl⟩ := build_chain_eq_ok_iff.1 h
      obtain ⟨parts, ts, hsegments, hparts, hlast⟩ :=
        parseSegments_eq_ok_iff.1 htail
      have htail : tail = joinChain (parts ++ [ts]) := by
        rw [joinChain, ← hsegments, Pattern.intercalate_splitTopLevel]
      rw [htail, ← joinChain_cons]
      exact .chain hhead hparts hlast
    -- An expression, which is whatever the other rows have left.
    · obtain ⟨-, ⟨⟩⟩ := Pattern.exists_of_read_rest hread
      obtain ⟨e, he, rfl⟩ := exists_of_map_eq_ok h
      exact .expr he

/-- What a row has recorded is what the line is built from. -/
theorem parseStatement_of_readWhole (form : StatementForm) (slots : Slots)
    (hrow : statementRules.readWhole ts = some (form, slots))
    (h : LineForm.build form slots = .ok k) : parseStatement ts = .ok k := by
  rw [parseStatement_eq, hrow]
  exact h

/-- **A definition of a function is read as it is written.** The row before it
asks for `exit`, so what has to be seen is that the run between the brackets
ends where it should: none of the parameters is a bracket, nor are the commas
between them. -/
theorem parseStatement_function {name : Token} {params : List Token}
    (hname : isIdentifier name = true)
    (hparams : ∀ p ∈ params, isIdentifier p = true) :
    parseStatement
      ("function" :: name :: "(" :: (params.intersperse "," ++ [")"]))
      = .ok (.function ⟨name, params⟩) := by
  have hclosed : Bracket.closed? ")" = some .round := by decide
  have hread : ∀ (p : Row) us, Pattern.read (.token "function" ::
      (Entry.satisfying isIdentifier).named "name" :: .token "(" :: p)
      ("function" :: name :: "(" :: us)
        = (Pattern.read p us).map (Pattern.record "name" [name]) := by
    intro p us
    simp [hname]
  cases params with
  | nil =>
    refine parseStatement_of_readWhole .function [("name", [name])] ?_ rfl
    unfold statementRules
    rw [Rules.readWhole_cons_of_none (Pattern.readWhole_of_head_ne (by decide))]
    refine Rules.readWhole_cons ?_
    rw [hread, List.intersperse_nil, List.nil_append,
      Pattern.read_sequence_orNothing, Pattern.grow_closer hclosed]
    rfl
  | cons p params =>
    have hne : (p :: params).intersperse "," ≠ [] := by
      cases params <;> exact List.cons_ne_nil _ _
    have hbalanced : Pattern.Balanced ((p :: params).intersperse ",") := by
      refine Pattern.balanced_of_forall fun t ht => ?_
      rw [← intercalate_singletons] at ht
      obtain rfl | ⟨part, hpart, ht⟩ :=
        Pattern.eq_or_exists_of_mem_intercalate ht
      · decide
      · obtain ⟨t, hmem, rfl⟩ := List.mem_map.1 hpart
        obtain rfl := List.mem_singleton.1 ht
        have hplain := plain_of_class (hparams _ hmem) (by decide)
        exact ⟨hplain.1, hplain.2.1⟩
    refine parseStatement_of_readWhole .function
      [("name", [name]), ("params", (p :: params).intersperse ",")] ?_ ?_
    · unfold statementRules
      rw [Rules.readWhole_cons_of_none (Pattern.readWhole_of_head_ne (by decide))]
      refine Rules.readWhole_cons ?_
      rw [hread, Pattern.read_upTo_orNothing hclosed hbalanced hne]
      rfl
    · show (parseParams name _).map _ = _
      rw [parseParams_eq_ok_iff.2 ⟨List.cons_ne_nil p params, rfl, hparams⟩]
      rfl

/-- A name and an arrow in front of what is stored. -/
theorem read_store {name arrow : Token} (hname : isIdentifier name = true)
    (harrow : arrow ∈ arrows) (p : Row) (ts : List Token) :
    Pattern.read ((Entry.satisfying isIdentifier).named "name"
        :: Entry.oneOf ["<<", ":="] :: p) (name :: arrow :: ts)
        = (Pattern.read p ts).map (Pattern.record "name" [name]) := by
  rw [Pattern.read_satisfying]
  dsimp only
  rw [if_pos hname, Pattern.read_oneOf_unnamed]
  dsimp only
  rw [show ["<<", ":="].contains arrow = true from
    List.contains_iff_mem.2 harrow, if_pos rfl]

/-- No line that stores something begins with a word of the grammar. The words
of the grammar are reserved, so they are no identifiers, and what begins with
an identifier begins with none of them. -/
theorem readWhole_drop_two {name : Token} (hname : isIdentifier name = true)
    (ts : List Token) :
    statementRules.readWhole (name :: ts)
      = Rules.readWhole (statementRules.drop 2) (name :: ts) := by
  have hne : ∀ t, isIdentifier t = false → name ≠ t := by
    rintro t ht rfl
    exact Bool.false_ne_true (ht ▸ hname)
  rw [statementRules,
    Rules.readWhole_cons_of_none
    (Pattern.readWhole_of_head_ne (hne _ (by decide))),
    Rules.readWhole_cons_of_none
    (Pattern.readWhole_of_head_ne (hne _ (by decide)))]
  rfl

/-- A line without these tokens is none of the first four forms, each of which
asks for one of them. -/
theorem readWhole_drop_four (h : ∀ t ∈ ["exit", "function", "<<", ":="],
    t ∉ ts) :
    statementRules.readWhole ts = Rules.readWhole (statementRules.drop 4)
    ts := by
  simp only [List.forall_mem_cons, List.not_mem_nil, false_imp_iff,
    implies_true, and_true] at h
  obtain ⟨hexit, hfunction, hstore, hassign⟩ := h
  have hnone : ∀ p : Row, Entry.oneOf ["<<", ":="] ∈ p →
      Pattern.readWhole p ts = none := by
    refine fun p hp => Pattern.readWhole_eq_none fun slots hread => ?_
    obtain ⟨t, ht, htext⟩ := Pattern.exists_mem_of_read_oneOf hread hp rfl rfl
    obtain rfl | htext := List.mem_cons.1 htext
    · exact hstore ht
    · obtain rfl := List.mem_singleton.1 htext
      exact hassign ht
  rw [statementRules,
    Rules.readWhole_cons_of_none
    (Pattern.readWhole_eq_none_of_not_mem (by simp) hexit),
    Rules.readWhole_cons_of_none
    (Pattern.readWhole_eq_none_of_not_mem (by simp) hfunction),
    Rules.readWhole_cons_of_none (hnone _ (by simp)),
    Rules.readWhole_cons_of_none (hnone _ (by simp))]
  rfl

/-- What has not the shape of a scope is left by the row of scopes. -/
theorem readWhole_scope_eq_none (h : isScopeForm ts = false) :
    Pattern.readWhole [(Entry.sequence scopeShape).named "scope"] ts
      = none := by
  refine Pattern.readWhole_eq_none fun slots hread => ?_
  rw [read_scope, h] at hread
  cases hread

/-- A token that is in none of the parts is not in the chain, unless it is the
arrow. -/
theorem not_mem_joinChain {t : Token} {parts : List (List Token)}
    (ht : t ≠ ">>") (h : ∀ part ∈ parts, t ∉ part) : t ∉ joinChain parts := by
  intro hmem
  obtain heq | ⟨part, hpart, htpart⟩ :=
    Pattern.eq_or_exists_of_mem_intercalate hmem
  · exact ht heq
  · exact h part hpart htpart

/-- The tokens that the first four rows ask for are in neither an expression
nor a scope. -/
theorem ChainEnd.Written.not_mem {last : ChainEnd} {t : Token}
    (h : last.Written ts) (ht : t ∈ ["exit", "function", "<<", ":="]) :
    t ∉ ts := by
  cases h with
  | expr h =>
    exact not_mem_of_parseExpr h
      (List.mem_append_left _ (List.mem_append_left ["::", ">>"] ht))
  | scope h => exact h.not_mem ht

section Chain

variable {head : List Token} {parts : List (List Token)} {e : Expr}
  {middle : List Expr} {last : ChainEnd}

/-- Each of the parts has been read as an expression. -/
theorem exists_of_forall₂_parseExpr
    (h : List.Forall₂ (fun part e => parseExpr part = .ok e) parts middle)
    {part : List Token} (hpart : part ∈ parts) :
    ∃ e, parseExpr part = .ok e := by
  induction h with
  | nil => cases hpart
  | cons he _ ih =>
    obtain rfl | hpart := List.mem_cons.1 hpart
    · exact ⟨_, he⟩
    · exact ih hpart

/-- The parts of a chain are cut off, whatever is behind them. -/
theorem splitTopLevel_joinChain
    (hparts : List.Forall₂ (fun part e => parseExpr part = .ok e) parts middle)
    (ts : List Token) :
    splitTopLevel ">>" (joinChain (parts ++ [ts]))
    = parts ++ splitTopLevel ">>" ts := by
  refine Pattern.splitTopLevel_intercalate_append (by decide) (by decide)
    (fun part hpart => ?_) ts
  obtain ⟨e, he⟩ := exists_of_forall₂_parseExpr hparts hpart
  exact sealed_of_parseExpr he (by decide)

/-- **A chain is read as it is written.** The head has no arrow at top level,
so the run up to the first arrow stops behind the head. What follows is split
at the remaining arrows, and as none of the parts has one it comes apart as it
was put together. -/
theorem parseStatement_chain (hhead : parseExpr head = .ok e)
    (hparts : List.Forall₂ (fun part e => parseExpr part = .ok e) parts middle)
    (hlast : last.Written ts) :
    parseStatement (joinChain (head :: parts ++ [ts]))
    = .ok (.action (.chain e middle last)) := by
  have hsplit := splitTopLevel_joinChain hparts ts
  have hsplit' := splitTopLevel_joinChain (.cons hhead hparts) ts
  rw [hlast.sealed.splitTopLevel] at hsplit hsplit'
  have hnone : ∀ t ∈ ["exit", "function", "<<", ":="],
      t ∉ joinChain (head :: parts ++ [ts]) := by
    intro t ht
    refine not_mem_joinChain ?_ fun part hpart => ?_
    · rintro rfl
      exact absurd ht (by decide)
    · obtain hpart | hpart := List.mem_append.1 hpart
      · obtain ⟨e, he⟩ := exists_of_forall₂_parseExpr (.cons hhead hparts) hpart
        exact not_mem_of_parseExpr he
          (List.mem_append_left _ (List.mem_append_left ["::", ">>"] ht))
      · rw [List.mem_singleton.1 hpart]
        exact hlast.not_mem ht
  have hshape : isScopeForm (joinChain (head :: parts ++ [ts])) = false := by
    refine isScopeForm_of_splitTopLevel ?_
    rw [hsplit']
    simp
  refine parseStatement_of_readWhole .chain
    [("head", head), ("tail", joinChain (parts ++ [ts]))] ?_ ?_
  · rw [readWhole_drop_four hnone]
    refine (Rules.readWhole_cons_of_none (readWhole_scope_eq_none hshape)).trans
      ?_
    refine Rules.readWhole_cons ?_
    have hgrow := (balanced_of_parseExpr hhead).grow_upTo_of_not_mem
      (not_mem_of_parseExpr hhead (by decide : ">>" ∈ formTokens))
      (ne_nil_of_parseExpr hhead) (joinChain (parts ++ [ts]))
    have htail : joinChain (parts ++ [ts]) ≠ [] := by
      intro hnil
      rw [hnil] at hsplit
      have hempty := congrArg List.getLast? hsplit
      rw [List.getLast?_append_cons, List.getLast?_singleton] at hempty
      exact hlast.ne_nil (Option.some.inj hempty).symm
    rw [joinChain_cons, Pattern.read_upTo_of_grow hgrow, Pattern.read_rest,
      if_neg (by simpa using htail)]
    rfl
  · refine build_chain_eq_ok_iff.2 ⟨e, middle, last, hhead, ?_, rfl⟩
    rw [hsplit]
    exact parseSegments_eq_ok_iff.2 ⟨parts, ts, rfl, hparts, hlast⟩

end Chain

/-- **A line is read as it is written.** Each form passes the rows before its
own, and its own row records its parts. -/
theorem LineForm.Written.parseStatement (h : k.Written ts) :
    parseStatement ts = .ok k := by
  cases h with
  | exit => exact parseStatement_of_readWhole .exit [] rfl rfl
  | function hname hparams => exact parseStatement_function hname hparams
  | @storeScope name arrow ts s hname harrow h =>
    refine parseStatement_of_readWhole .storeScope [("name", [name]),
      ("scope", ts)] ?_ ?_
    · rw [readWhole_drop_two hname]
      refine Rules.readWhole_cons ?_
      rw [read_store hname harrow, read_scope, if_pos h.isScopeForm]
      rfl
    · show (requireScope ts).map _ = _
      rw [requireScope_eq_ok_iff.2 h]
      rfl
  | @store name arrow ts e hname harrow h =>
    refine parseStatement_of_readWhole .store [("name", [name]),
      ("expr", ts)] ?_ ?_
    · rw [readWhole_drop_two hname]
      refine (Rules.readWhole_cons_of_none
        (Pattern.readWhole_eq_none fun slots hread => ?_)).trans
        (Rules.readWhole_cons ?_)
      · rw [read_store hname harrow, read_scope,
          isScopeForm_of_parseExpr h] at hread
        cases hread
      · rw [read_store hname harrow, Pattern.read_rest,
          if_neg (by simpa using ne_nil_of_parseExpr h)]
        rfl
    · show (parseExpr ts).map _ = _
      rw [h]
      rfl
  | scope h =>
    refine parseStatement_of_readWhole .scope [("scope", ts)] ?_ ?_
    · rw [readWhole_drop_four fun t ht => h.not_mem ht]
      refine Rules.readWhole_cons ?_
      rw [read_scope, if_pos h.isScopeForm]
    · show (requireScope ts).map _ = _
      rw [requireScope_eq_ok_iff.2 h]
      rfl
  | chain hhead hparts hlast => exact parseStatement_chain hhead hparts hlast
  | @expr ts e h =>
    refine parseStatement_of_readWhole .expr [("expr", ts)] ?_ ?_
    · rw [readWhole_drop_four fun t ht => not_mem_of_parseExpr h
        (List.mem_append_left _ (List.mem_append_left ["::", ">>"] ht))]
      have hchain : ">>" ∉ ts := not_mem_of_parseExpr h (by decide)
      refine (Rules.readWhole_cons_of_none
        (readWhole_scope_eq_none (isScopeForm_of_parseExpr h))).trans ?_
      refine (Rules.readWhole_cons_of_none
        (Pattern.readWhole_eq_none_of_not_mem (by simp) hchain)).trans ?_
      refine Rules.readWhole_cons ?_
      rw [Pattern.read_rest, if_neg (by simpa using ne_nil_of_parseExpr h)]
    · show (parseExpr ts).map _ = _
      rw [h]
      rfl

end ReadLine

/-- **A scope is the same scope** as a line, at the end of a chain, and where
it is stored. One direction puts the chain together. For the other the tokens
come apart in one way only, so whatever chain they are read as, its last part
is this one. -/
theorem chain_scope_written_iff {head ts : List Token}
    {parts : List (List Token)} {e : Expr} {middle : List Expr} {s : ScopeForm}
    (hhead : parseExpr head = .ok e)
    (hparts : List.Forall₂ (fun part e => parseExpr part = .ok e) parts
      middle) :
    (LineForm.action (.chain e middle (.scope s))).Written
      (joinChain (head :: parts ++ [ts])) ↔
      s.Written ts := by
  refine ⟨fun h => ?_, fun h => .chain hhead hparts (.scope h)⟩
  generalize hus : joinChain (head :: parts ++ [ts]) = us at h
  cases h with
  | @chain head' parts' ts' _ _ _ hhead' hparts' hlast =>
    cases hlast with
    | scope h =>
      -- There are as many parts in front of the last on both sides, and they
      -- are the same.
      have hsplit := congrArg (splitTopLevel ">>") hus
      rw [splitTopLevel_joinChain (.cons hhead hparts),
        splitTopLevel_joinChain (.cons hhead' hparts'),
        h.sealed.splitTopLevel] at hsplit
      have hlength : (head :: parts).length = (head' :: parts').length :=
        congrArg (· + 1) (hparts.length_eq.trans hparts'.length_eq.symm)
      have hlast := (List.append_inj hsplit hlength).2
      rw [← Pattern.intercalate_splitTopLevel ">>" ts, hlast,
        List.intercalate_singleton]
      exact h

/-- **A line is read exactly as it is written**, and it is written in one way
only. The same holds of scopes, and what is read as a scope has the shape of
one. The last three statements say of the places where a scope may stand that
the same tokens are the same scope in each of them: on a line of their own,
behind the last arrow of a chain, and behind the arrow of a store. -/
theorem parseStatement_iff_written :
    (∀ ts k, parseStatement ts = .ok k ↔ k.Written ts) ∧
    (∀ ts k k', LineForm.Written k ts → LineForm.Written k' ts → k = k') ∧
    (∀ ts s, parseScope ts = some (.ok s) ↔ s.Written ts) ∧
    (∀ ts s, parseScope ts = some (.ok s) → isScopeForm ts = true) ∧
    (∀ ts s, parseStatement ts = .ok (.action (.scope s)) ↔
      parseScope ts = some (.ok s)) ∧
    (∀ ts s head e parts middle, parseExpr head = .ok e →
      List.Forall₂ (fun part e => parseExpr part = .ok e) parts middle →
      (parseStatement ts = .ok (.action (.scope s)) ↔
        parseStatement (joinChain (head :: parts ++ [ts]))
          = .ok (.action (.chain e middle (.scope s))))) ∧
    ∀ ts s name arrow, isIdentifier name = true → arrow ∈ arrows →
      (parseStatement ts = .ok (.action (.scope s)) ↔
        parseStatement (name :: arrow :: ts)
        = .ok (.action (.storeScope name s))) := by
  have hread : ∀ ts k, parseStatement ts = .ok k ↔ k.Written ts := fun ts k =>
    ⟨written_of_parseStatement, LineForm.Written.parseStatement⟩
  have hscope : ∀ ts s, parseStatement ts = .ok (.action (.scope s)) ↔
      s.Written ts := by
    intro ts s
    rw [hread]
    refine ⟨fun h => ?_, .scope⟩
    cases h with
    | scope h => exact h
  refine ⟨hread, fun ts k k' h h' => ?_, fun ts s => parseScope_eq_some_ok_iff,
    fun ts s h => (written_of_parseScope h).isScopeForm, fun ts s => ?_,
    fun ts s head e parts middle hhead hparts => ?_,
    fun ts s name arrow hname harrow => ?_⟩
  · exact Except.ok.inj (h.parseStatement.symm.trans h'.parseStatement)
  · rw [hscope, parseScope_eq_some_ok_iff]
  · rw [hscope, hread, chain_scope_written_iff hhead hparts]
  · rw [hscope, hread]
    refine ⟨.storeScope hname harrow, fun h => ?_⟩
    cases h with
    | storeScope _ _ h => exact h

/-- `xs :: map` in all three places. -/
theorem mapTokens_written_everywhere :
    ∃ e s, parseExpr ["xs"] = .ok e ∧
      parseStatement ["xs", "::", "map"] = .ok (.action (.scope s)) ∧
      parseStatement ["xs", ">>", "xs", "::", "map"]
      = .ok (.action (.chain e [] (.scope s))) ∧
      parseStatement ["y", "<<", "xs", "::", "map"]
      = .ok (.action (.storeScope "y" s)) := by
  have hname : Derives .expr ["xs"] := .single (.name (by decide))
  obtain ⟨e, he⟩ := exists_parseExpr_of_derives hname hname.read
  obtain ⟨hread, -, -, -, -, hchain, hstore⟩ := parseStatement_iff_written
  have hscope : parseStatement ["xs", "::", "map"]
      = .ok (.action (.scope { kind := .map, pre := some e })) :=
    (hread _ _).2 (.scope (.pre .map he))
  exact ⟨e, _, he, hscope, (hchain _ _ ["xs"] e [] [] he .nil).1 hscope,
    (hstore _ _ "y" "<<" (by decide) (by decide)).1 hscope⟩

end StreamScript
