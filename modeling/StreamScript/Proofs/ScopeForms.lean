import StreamScript.Statement.Grammar
import StreamScript.Proofs.Derivation

/-!
# The forms of a scope

A scope is recognised twice. Its shape is found by splitting at `::`, and
guards the table of lines. Its parts are found by a table of its own, through
runs that grow up to `::`. The two could disagree, and a line would be misread
in silence.

They do not. What a scope is as it is written (`ScopeForm.Written`) has the
shape, and it is read so and only so (`parseScope_eq_some_ok_iff`). The reason
is that an expression has none of the tokens that the forms are made of, in
brackets or out of them (`Derives.not_mem`). It is balanced besides. So it
stays together wherever such a token is looked for, no row that asks for one
matches by accident, and a keyword stands alone or not at all.

Scopes and lines are read to the end, unlike operands. `Pattern.readWhole` is
the reading of a row that leaves nothing.
-/

namespace StreamScript

open Pattern (Entry Slots Rules Row Sealed splitTopLevel)

/-! ## Rows that take a whole line

A row for a line has to take all tokens. Since rows do not go back, it does so
exactly if what it reads leaves nothing (`readWhole_eq_some_iff`), and a table
is searched for the first row of which this is true. -/

namespace Pattern

variable {p : Row} {ts : List Token} {key : String} {slots : Slots}

/-- What a row records of tokens that it takes to the end. -/
def readWhole (p : Row) (ts : List Token) : Option Slots :=
  match read p ts with
  | some (slots, []) => some slots
  | _ => none

/-- A row takes a line if it leaves nothing of it. -/
theorem readWhole_eq_some_iff :
    readWhole p ts = some slots ↔ read p ts = some (slots, []) := by
  unfold readWhole
  split
  · next found h =>
    rw [h]
    simp
  · next h => exact iff_of_false nofun fun heq => h slots heq

theorem readWhole_eq_none (h : ∀ slots, read p ts ≠ some (slots, [])) :
    readWhole p ts = none := by
  cases hread : readWhole p ts with
  | none => rfl
  | some slots => exact absurd (readWhole_eq_some_iff.1 hread) (h slots)

/-- **The first row of a table that takes a whole line**, with what it records.
Rows are tried in their order, so a form further down is only reached by a line
that no row above takes. -/
def Rules.readWhole {α : Type} (rules : Rules α) (ts : List Token) :
    Option (α × Slots) :=
  rules.findSome? fun (p, a) => (Pattern.readWhole p ts).map fun slots =>
    (a, slots)

/-- The search in terms of rows is the search of the table. -/
theorem Rules.readWhole_eq {α : Type} (rules : Rules α) (ts : List Token) :
    rules.readWhole ts = (rules.firstFull ts 0).map fun (a, caps) =>
      (a, caps.slots) := by
  have hrow : ∀ p : Row,
      Pattern.readWhole p ts = (matchFull p ts 0).map Captures.slots := by
    intro p
    unfold Pattern.readWhole Pattern.read matchFull matchPartial
    rw [List.drop_zero]
    cases hw : walk p ts with
    | none => rfl
    | some caps =>
      have hle := consumed_le_of_walk hw
      rw [Option.map_some, Option.filter_some]
      cases hleft : ts.drop caps.consumed with
      | nil =>
        have hall := List.drop_eq_nil_iff.1 hleft
        rw [if_pos (by simpa using Nat.le_antisymm hle hall)]
        rfl
      | cons t rest =>
        have hlt : caps.consumed < ts.length := by
          refine Nat.lt_of_not_le fun hall => ?_
          rw [List.drop_eq_nil_of_le hall] at hleft
          cases hleft
        rw [if_neg (by simpa using Nat.ne_of_lt hlt)]
        rfl
  unfold Rules.readWhole Rules.firstFull
  induction rules with
  | nil => rfl
  | cons rule rules ih =>
    rw [List.findSome?_cons, List.findSome?_cons, ih]
    dsimp only
    rw [hrow]
    cases matchFull rule.1 ts 0 <;> rfl

/-- A row that does not take the line is passed over. -/
theorem Rules.readWhole_cons_of_none {α : Type} {rules : Rules α} {a : α}
    (h : Pattern.readWhole p ts = none) :
    Rules.readWhole ((p, a) :: rules) ts = rules.readWhole ts := by
  unfold Rules.readWhole
  rw [List.findSome?_cons]
  dsimp only
  rw [h]
  rfl

/-- A row that takes it ends the search. -/
theorem Rules.readWhole_cons {α : Type} {rules : Rules α} {a : α}
    (h : Pattern.read p ts = some (slots, [])) :
    Rules.readWhole ((p, a) :: rules) ts = some (a, slots) := by
  unfold Rules.readWhole
  rw [List.findSome?_cons]
  dsimp only
  rw [readWhole_eq_some_iff.2 h]
  rfl

/-- The row that matched, in the table. -/
theorem Rules.exists_of_readWhole {α : Type} {rules : Rules α} {a : α}
    (h : rules.readWhole ts = some (a, slots)) :
    ∃ p, (p, a) ∈ rules ∧ Pattern.read p ts = some (slots, []) := by
  obtain ⟨⟨p, b⟩, hmem, hb⟩ := List.exists_of_findSome?_eq_some h
  obtain ⟨slots', hread, heq⟩ := Option.map_eq_some_iff.1 hb
  obtain ⟨rfl, rfl⟩ := Prod.mk.inj heq
  exact ⟨p, hmem, readWhole_eq_some_iff.1 hread⟩

/-! ### Two more kinds of entries

Lines have entries that operands have not: a choice of tokens that is not
recorded, and the rest of the line, which must not be empty.

A row fails at once if it asks for a token that is nowhere in the line. This is
what `exists_mem_of_read` is for, and it is used the other way round: an
expression has none of the tokens that the forms ask for, so their rows are
passed without being looked at. -/

@[simp] theorem read_oneOf_unnamed (texts : List Token) (p : Row)
    (ts : List Token) :
    read (Entry.oneOf texts :: p) ts =
      match ts with
      | [] => none
      | t :: ts => if texts.contains t then read p ts else none := by
  cases ts with
  | nil => exact read_cons_of_none rfl
  | cons t ts =>
    dsimp only
    split
    · next h =>
      have hone : (Entry.oneOf texts).test.consume (t :: ts) = some 1 :=
        if_pos h
      rw [read_cons hone]
      exact Option.map_id'
    · next h => exact read_cons_of_none (if_neg h)

@[simp] theorem read_rest (key : String) (ts : List Token) :
    read [Entry.rest.named key] ts = if ts.isEmpty then none
      else some ([(key, ts)], []) := by
  cases ts with
  | nil => rfl
  | cons t ts =>
    have hall : Entry.rest.test.consume (t :: ts) = some (t :: ts).length := rfl
    rw [read_cons (e := Entry.rest.named key) hall, List.drop_length,
      List.take_length]
    rfl

/-- The end of the tokens, if a validator takes them all. -/
theorem read_sequence_end {validator : Validator} {takes : List Token → Bool}
    (h : ∀ ts, grow validator [] ts = if takes ts then some ts.length else none)
    (key : String) (ts : List Token) :
    read [(Entry.sequence validator).named key] ts
      = if takes ts then some ([(key, ts)], []) else none := by
  rw [read_sequence, h]
  cases takes ts with
  | false => rfl
  | true => simp [record]

/-- **What a row asks for is among the tokens.** It is how a row is excluded:
if it asks for a token and the line has none like it, the row does not take the
line. -/
theorem exists_mem_of_read {Q : Token → Prop} {e : Entry}
    {found : Slots × List Token} (h : read p ts = some found) (he : e ∈ p)
    (hrequired : e.optional = false)
    (hasks : ∀ us n, e.test.consume us = some n → ∃ t ∈ us, Q t) :
    ∃ t ∈ ts, Q t := by
  induction p generalizing ts found with
  | nil => cases he
  | cons e' p ih =>
    cases hn : e'.test.consume ts with
    | none =>
      rw [read_cons_of_none hn] at h
      obtain rfl | he := List.mem_cons.1 he
      · rw [hrequired, if_neg Bool.false_ne_true] at h
        cases h
      · split at h
        · exact ih h he
        · cases h
    | some n =>
      obtain rfl | he := List.mem_cons.1 he
      · exact hasks ts n hn
      · rw [read_cons hn] at h
        obtain ⟨found', h', -⟩ := Option.map_eq_some_iff.1 h
        obtain ⟨t, ht, hq⟩ := ih h' he
        exact ⟨t, List.mem_of_mem_drop ht, hq⟩

/-- A token that a row asks for is in the line. -/
theorem mem_of_read {t : Token} {found : Slots × List Token}
    (h : read p ts = some found) (he : Entry.token t ∈ p) : t ∈ ts := by
  obtain ⟨t', ht', rfl⟩ := exists_mem_of_read (Q := (t = ·)) h he rfl
      fun us n hn => by
    unfold Entry.token Test.consume at hn
    dsimp only at hn
    split at hn
    · next hhead => exact ⟨t, List.mem_of_mem_head? hhead, rfl⟩
    · cases hn
  exact ht'

theorem exists_mem_of_read_oneOf {texts : List Token} {e : Entry}
    {found : Slots × List Token} (h : read p ts = some found) (he : e ∈ p)
    (htest : e.test = .oneOf texts) (hrequired : e.optional = false) :
    ∃ t ∈ ts, t ∈ texts :=
  exists_mem_of_read h he hrequired fun us n hn => by
    rw [htest] at hn
    cases us with
    | nil => cases hn
    | cons t us =>
      unfold Test.consume at hn
      dsimp only at hn
      split at hn
      · next ht => exact ⟨t, List.mem_cons_self, List.contains_iff_mem.1 ht⟩
      · cases hn

/-- A row that begins with a token takes no line that begins with another. -/
theorem readWhole_of_head_ne {t t' : Token} (h : t' ≠ t) :
    readWhole (.token t :: p) (t' :: ts) = none := by
  refine readWhole_eq_none fun slots hread => ?_
  rw [read_token] at hread
  exact absurd hread (by simp [h])

/-- A row whose token is missing takes nothing. -/
theorem readWhole_eq_none_of_not_mem {t : Token} (he : Entry.token t ∈ p)
    (ht : t ∉ ts) :
    readWhole p ts = none :=
  readWhole_eq_none fun _ h => ht (mem_of_read h he)

theorem exists_of_read_oneOf_unnamed {texts : List Token}
    {found : Slots × List Token}
    (h : read (Entry.oneOf texts :: p) ts = some found) :
    ∃ t ts', ts = t :: ts' ∧ t ∈ texts ∧ read p ts' = some found := by
  rw [read_oneOf_unnamed] at h
  cases ts with
  | nil => cases h
  | cons t ts =>
    dsimp only at h
    split at h
    · next ht => exact ⟨t, ts, rfl, List.contains_iff_mem.1 ht, h⟩
    · cases h

/-- The rest of a line is recorded, if there is any. -/
theorem exists_of_read_rest {found : Slots × List Token}
    (h : read [Entry.rest.named key] ts = some found) :
    ts ≠ [] ∧ ([(key, ts)], []) = found := by
  rw [read_rest] at h
  cases ts with
  | nil => cases h
  | cons t ts => exact ⟨List.cons_ne_nil t ts, Option.some.inj h⟩

end Pattern

/-! ## Tokens that no expression has

An arrow, a double colon or a keyword is in no expression, however deep in its
brackets. The derivation of an expression shows it, because every token of an
expression is a literal, a name, an operator, a comma or a bracket, and the
words of the forms are reserved. -/

/-- **The tokens that the forms of lines and scopes are made of.** No
expression contains one of these outside of brackets, and that is what keeps
the forms apart. -/
def formTokens : List Token :=
  ["exit", "function", "<<", ":=", "::", ">>"] ++ ScopeKind.keywords

section FormTokens

variable {t : Token} {ts : List Token} {phrase : Phrase} {e : Expr}

/-- **No expression has a token that a form is made of**, in brackets or out of
them. The induction is on the derivation, with expressions, lists and operands
together; a phrase adds nothing to its parts but tokens of its own. -/
theorem Derives.not_mem (h : Derives phrase ts) (ht : t ∈ formTokens) :
    t ∉ ts := by
  have hid : ∀ f, isIdentifier f = true → t ≠ f := by
    rintro f hf rfl
    exact Bool.false_ne_true
      (((by decide : ∀ t ∈ formTokens, isIdentifier t = false) t ht) ▸ hf)
  have hnumber : ∀ f, isNumberToken f = true → t ≠ f := by
    rintro f hf rfl
    exact Bool.false_ne_true
      (((by decide : ∀ t ∈ formTokens, isNumberToken t = false) t ht) ▸ hf)
  have htext : ∀ f, isStringToken f = true → t ≠ f := by
    rintro f hf rfl
    exact Bool.false_ne_true
      (((by decide : ∀ t ∈ formTokens, isStringToken t = false) t ht) ▸ hf)
  have hmark : ∀ f ∈ ["(", ")", "[", "]", ",", "stream", "index"], t ≠ f :=
    (by decide : ∀ t ∈ formTokens,
      ∀ f ∈ ["(", ")", "[", "]", ",", "stream", "index"], t ≠ f) t ht
  have hsign : ∀ op : UnaryOp, t ≠ op.symbol := fun op => by
    cases op <;> exact (by decide : ∀ t ∈ formTokens, t ≠ _) t ht
  have htruth : ∀ b : Bool, t ≠ toString b := fun b => by
    cases b <;> exact (by decide : ∀ t ∈ formTokens, t ≠ _) t ht
  have hop : ∀ op : BinaryOp, t ≠ op.symbol := fun op => by
    cases op <;> exact (by decide : ∀ t ∈ formTokens, t ≠ _) t ht
  simp only [List.forall_mem_cons, List.not_mem_nil, false_imp_iff,
    implies_true, and_true] at hmark
  obtain ⟨hround, hround', hsquare, hsquare', hcomma, hstream, hindex⟩ := hmark
  induction h with
  | callNone hf => simp [hid _ hf, hround, hround']
  | call hf _ ih => simp [hid _ hf, hround, hround', ih]
  | group _ ih => simp [hround, hround', ih]
  | arrayNone => simp [hsquare, hsquare']
  | array _ ih => simp [hsquare, hsquare', ih]
  | sign op _ ih => simp [hsign op, ih]
  | number hn => simp [hnumber _ hn]
  | text hs => simp [htext _ hs]
  | truth b => simp [htruth b]
  | stream => simp [hstream]
  | index => simp [hindex]
  | name hf => simp [hid _ hf]
  | single _ ih | last _ ih => exact ih
  | infixed op _ _ ih ihs => simp [hop op, ih, ihs]
  | comma _ _ ih ihs => simp [hcomma, ih, ihs]

/-- What reads as an expression is derived. -/
theorem derives_of_parseExpr (h : parseExpr ts = .ok e) : Derives .expr ts :=
  ((soundBelow (ts.length + 1)).expr ts e (Nat.lt_succ_self _) h).1

/-- An expression holds none of the tokens that forms are told by, -/
theorem not_mem_of_parseExpr (h : parseExpr ts = .ok e) (ht : t ∈ formTokens) :
    t ∉ ts :=
  (derives_of_parseExpr h).not_mem ht

/-- its brackets have partners, -/
theorem balanced_of_parseExpr (h : parseExpr ts = .ok e) :
    Pattern.Balanced ts :=
  (derives_of_parseExpr h).whole.balanced

/-- and it is not empty. -/
theorem ne_nil_of_parseExpr (h : parseExpr ts = .ok e) : ts ≠ [] :=
  (derives_of_parseExpr h).ne_nil

/-- An expression is not split at such a token: it has none at any level, and
it is balanced, so that splitting cannot take something behind it for its
inside. -/
theorem sealed_of_parseExpr (h : parseExpr ts = .ok e) (ht : t ∈ formTokens) :
    Pattern.Sealed t 0 ts :=
  (balanced_of_parseExpr h).sealed (not_mem_of_parseExpr h ht)

end FormTokens

/-! ## How scopes are written

A keyword, with or without an expression on either side. Each side has its
double colon. The kind is determined by the keyword, and one keyword belongs to
each kind. -/

/-- **A scope as it is written**, with an expression in front of its keyword
and one behind it, or either of them, or none. Nothing is said about which row
of the table reads it, so a scope that is written in one way could be read in
another; that it is not is proved below. -/
inductive ScopeForm.Written : ScopeForm → List Token → Prop
  | bare (kind : ScopeKind) : Written { kind } [kind.keyword]
  | pre {ts : List Token} {e : Expr} (kind : ScopeKind)
      (h : parseExpr ts = .ok e) :
      Written { kind, pre := some e } (ts ++ ["::", kind.keyword])
  | post {us : List Token} {e : Expr} (kind : ScopeKind)
      (h : parseExpr us = .ok e) :
      Written { kind, post := some e } (kind.keyword :: "::" :: us)
  | both {ts us : List Token} {e e' : Expr} (kind : ScopeKind)
      (h : parseExpr ts = .ok e) (h' : parseExpr us = .ok e') :
      Written { kind, pre := some e, post := some e' }
      (ts ++ "::" :: kind.keyword :: "::" :: us)

/-! ## The shape of a scope

The shape is what guards the table of lines. A run of this shape grows to the
end or fails there, so the row of scopes takes a line exactly if the line has
the shape. What is written as a scope has it, an expression has not, and a
chain has not either, whatever its last part is. So an expression and a chain
pass the row of scopes, and come to the rows of their own. -/

section Shape

variable {ts us : List Token} {e : Expr} {s : ScopeForm}

/-- The run takes all tokens, or it fails behind the last of them. It is never
content with fewer, because being a scope is asked only at the end. -/
theorem grow_scopeShape (ts : List Token) :
    Pattern.grow scopeShape [] ts = if isScopeForm ts then some ts.length
      else none := by
  have hgrow : ∀ (run : List Token), ts ≠ [] → Pattern.grow scopeShape run ts
      = if isScopeForm (run ++ ts) then some (run.length + ts.length)
      else none := by
    induction ts with
    | nil => exact fun run hne => absurd rfl hne
    | cons t ts ih =>
      intro run _
      rw [Pattern.grow]
      cases ts with
      | nil =>
        have hverdict : scopeShape (run ++ [t]) [].head?
            = if isScopeForm (run ++ [t]) then .accept else .reject := rfl
        rw [hverdict, List.length_singleton]
        cases isScopeForm (run ++ [t]) <;> rfl
      | cons t' ts =>
        have hverdict : scopeShape (run ++ [t]) (t' :: ts).head? = .undecided :=
          rfl
        rw [hverdict]
        dsimp only
        rw [ih (run ++ [t]) (List.cons_ne_nil t' ts), List.append_assoc,
          List.length_append, Nat.add_assoc, Nat.add_comm [t].length]
        rfl
  cases ts with
  | nil => rfl
  | cons t ts =>
    refine (hgrow [] (List.cons_ne_nil t ts)).trans ?_
    rw [List.nil_append, List.length_nil, Nat.zero_add]

/-- A keyword is no bracket and neither separator. -/
theorem sealed_keyword (kind : ScopeKind) {sep : Token}
    (hsep : sep ∈ ["::", ">>"]) :
    Sealed sep 0 [kind.keyword] := by
  have hclass : ∀ sep ∈ ["::", ">>"], Bracket.opened? kind.keyword = none ∧
      Bracket.closed? kind.keyword = none ∧ kind.keyword ≠ sep := by
    cases kind <;> decide
  obtain ⟨ho, hc, hne⟩ := hclass sep hsep
  exact Pattern.sealed_token ho hc hne

theorem isKeyword_keyword (kind : ScopeKind) :
    isKeyword [kind.keyword] = true := by
  cases kind <;> decide

/-- A keyword is no expression. -/
theorem isKeyword_of_parseExpr (h : parseExpr ts = .ok e) :
    isKeyword ts = false := by
  unfold isKeyword
  split
  · next t =>
    refine Bool.eq_false_iff.2 fun ht => ?_
    have hform : t ∈ formTokens :=
      List.mem_append_right _ (List.contains_iff_mem.1 ht)
    exact not_mem_of_parseExpr h hform (List.mem_singleton_self t)
  · rfl

theorem ScopeForm.Written.ne_nil (h : s.Written ts) : ts ≠ [] := by
  cases h with
  | bare | post => exact List.cons_ne_nil _ _
  | pre | both =>
    exact List.append_ne_nil_of_right_ne_nil _ (List.cons_ne_nil _ _)

/-- A scope has no token that another form asks for. -/
theorem ScopeForm.Written.not_mem {t : Token} (h : s.Written ts)
    (ht : t ∈ ["exit", "function", "<<", ":="]) : t ∉ ts := by
  have hcolons : t ≠ "::" := by
    rintro rfl
    exact absurd ht (by decide)
  have hkeyword : ∀ kind : ScopeKind, t ≠ kind.keyword := by
    rintro kind rfl
    exact absurd ht (by cases kind <;> decide)
  have hexpr : ∀ {us e}, parseExpr us = .ok e → t ∉ us := fun he =>
    not_mem_of_parseExpr he
      (List.mem_append_left _ (List.mem_append_left ["::", ">>"] ht))
  cases h with
  | bare kind => simp [hkeyword kind]
  | pre kind h => simp [hexpr h, hcolons, hkeyword kind]
  | post kind h => simp [hexpr h, hcolons, hkeyword kind]
  | both kind h h' => simp [hexpr h, hexpr h', hcolons, hkeyword kind]

/-- What a scope is written with, apart from its own separator, is no separator
either. -/
theorem ScopeForm.Written.sealed (h : s.Written ts) : Sealed ">>" 0 ts := by
  have hcolons : Sealed ">>" 0 ["::"] :=
    Pattern.sealed_token (by decide) (by decide) (by decide)
  have hexpr : ∀ {ts e}, parseExpr ts = .ok e → Sealed ">>" 0 ts := fun h =>
    sealed_of_parseExpr h (by decide)
  have hkeyword : ∀ kind : ScopeKind,
      Sealed ">>" 0 [kind.keyword] := fun kind =>
    sealed_keyword kind (by decide)
  cases h with
  | bare kind => exact hkeyword kind
  | pre kind h => exact (hexpr h).append (hcolons.append (hkeyword kind))
  | post kind h => exact (hkeyword kind).append (hcolons.append (hexpr h))
  | both kind h h' =>
    exact (hexpr h).append
      (hcolons.append ((hkeyword kind).append (hcolons.append (hexpr h'))))

/-- **A scope as it is written has the shape of a scope.** Splitting at the
double colon gives the expressions and the keyword, and nothing else, since the
expressions have none. -/
theorem ScopeForm.Written.isScopeForm (h : s.Written ts) :
    isScopeForm ts = true := by
  have hchain : (splitTopLevel ">>" ts).length = 1 := by
    rw [h.sealed.splitTopLevel]
    rfl
  have hexpr : ∀ {ts e}, parseExpr ts = .ok e → Sealed "::" 0 ts := fun h =>
    sealed_of_parseExpr h (by decide)
  have hkeyword : ∀ kind : ScopeKind,
      Sealed "::" 0 [kind.keyword] := fun kind =>
    sealed_keyword kind (by decide)
  have hcons : ∀ {ts}, Sealed "::" 0 ts → ∀ rest,
      splitTopLevel "::" (ts ++ "::" :: rest) = ts :: splitTopLevel "::" rest :=
    fun h =>
      h.splitTopLevel_cons (by decide) (by decide)
  unfold StreamScript.isScopeForm
  rw [hchain, if_neg (by decide)]
  cases h with
  | bare kind =>
    rw [(hkeyword kind).splitTopLevel]
    exact isKeyword_keyword kind
  | pre kind h =>
    rw [hcons (hexpr h), (hkeyword kind).splitTopLevel]
    exact Bool.or_eq_true_iff.2 (.inr (isKeyword_keyword kind))
  | @post us _ kind h =>
    rw [show kind.keyword :: "::" :: us = [kind.keyword] ++ "::" :: us from rfl,
      hcons (hkeyword kind), (hexpr h).splitTopLevel]
    exact Bool.or_eq_true_iff.2 (.inl (isKeyword_keyword kind))
  | @both _ us _ _ kind h h' =>
    rw [hcons (hexpr h),
      show kind.keyword :: "::" :: us = [kind.keyword] ++ "::" :: us from rfl,
      hcons (hkeyword kind), (hexpr h').splitTopLevel]
    exact isKeyword_keyword kind

/-- **An expression has not.** So no line can be taken for the one and for the
other: which of the two a line is, is settled by its tokens alone. -/
theorem isScopeForm_of_parseExpr (h : parseExpr ts = .ok e) :
    isScopeForm ts = false := by
  unfold isScopeForm
  rw [(sealed_of_parseExpr h (by decide : ">>" ∈ formTokens)).splitTopLevel,
    (sealed_of_parseExpr h (by decide : "::" ∈ formTokens)).splitTopLevel]
  exact isKeyword_of_parseExpr h

/-- Nor has a chain. -/
theorem isScopeForm_of_splitTopLevel (h : 1 < (splitTopLevel ">>" ts).length) :
    isScopeForm ts = false := by
  unfold isScopeForm
  rw [if_pos h]

end Shape

/-! ## Scopes that are read

The parts of a scope are found by a table with a row for every way in which the
expressions can be there or not. As for lines, what a row has recorded is
turned into a scope by one function, and the two directions are proved apart. -/

/-- The expression that a row has recorded under a key, if there is one. -/
def recordedExpr? (slots : Slots) (key : String) :
    Except GrammarError (Option Expr) :=
  (slots.lookup key).elim (.ok none) fun ts => (parseExpr ts).map some

/-- **The scope of what a row has recorded.** The keyword is recorded under
`kw`, and the two expressions under names of their own if the row has them. -/
def ScopeForm.build (slots : Slots) :
    Option (Except GrammarError ScopeForm) := do
  let kind ← ((slots.lookup "kw").bind List.head?).bind ScopeKind.ofKeyword?
  return do
    let pre ← recordedExpr? slots "pre"
    let post ← recordedExpr? slots "post"
    return { kind, pre, post }

/-- A scope is what the first row that matches all of it makes of its record.
-/
theorem parseScope_eq (ts : List Token) :
    parseScope ts = (scopeRules.readWhole ts).bind fun (_, slots) =>
      ScopeForm.build slots := by
  have hexpr : ∀ (caps : Pattern.Captures) key,
      caps.expr? key = recordedExpr? caps.slots key := by
    intro caps key
    unfold Pattern.Captures.expr? recordedExpr? Pattern.Captures.get?
    cases caps.slots.lookup key <;> rfl
  rw [Rules.readWhole_eq]
  unfold parseScope
  cases scopeRules.firstFull ts 0 with
  | none => rfl
  | some found =>
    simp only [Option.map_some, Option.bind_some, hexpr, Option.bind_eq_bind]
    rfl

section ReadScope

variable {ts us : List Token} {e e' : Expr} {s : ScopeForm} {kind : ScopeKind}

theorem exists_kind_of_mem_keywords {t : Token} (h : t ∈ ScopeKind.keywords) :
    ∃ kind : ScopeKind, t = kind.keyword := by
  obtain ⟨kind, -, rfl⟩ := List.mem_map.1 h
  exact ⟨kind, rfl⟩

theorem keyword_mem_keywords (kind : ScopeKind) :
    kind.keyword ∈ ScopeKind.keywords := by
  cases kind <;> decide

/-- What a row with a keyword builds. -/
theorem ScopeForm.build_eq_iff {slots : Slots}
    (hkw : slots.lookup "kw" = some [kind.keyword]) :
    ScopeForm.build slots = some (.ok s) ↔
      s.kind = kind ∧ recordedExpr? slots "pre" = .ok s.pre ∧
        recordedExpr? slots "post" = .ok s.post := by
  unfold ScopeForm.build
  rw [hkw, Option.bind_some, List.head?_cons, Option.bind_some,
    ScopeKind.ofKeyword?_keyword]
  obtain ⟨kind', pre', post'⟩ := s
  cases recordedExpr? slots "pre" with
  | error _ => exact iff_of_false nofun nofun
  | ok pre =>
    cases recordedExpr? slots "post" with
    | error _ => exact iff_of_false nofun nofun
    | ok post =>
      change some (Except.ok (ScopeForm.mk kind pre post)) = _ ↔ _
      simp [eq_comm]

/-- **All that reading a scope can come to.** An expression in front of the
keyword was recorded up to the double colon, and one behind it to the end. So
nothing is read as a scope that is not written as one. -/
theorem written_of_parseScope (h : parseScope ts = some (.ok s)) :
    s.Written ts := by
  rw [parseScope_eq] at h
  obtain ⟨⟨_, slots⟩, hrow, hbuild⟩ := Option.bind_eq_some_iff.1 h
  dsimp only at hbuild
  obtain ⟨p, hmem, hread⟩ := Rules.exists_of_readWhole hrow
  obtain ⟨kind, pre, post⟩ := s
  simp only [scopeRules, List.mem_cons, Prod.mk.injEq, List.not_mem_nil,
    or_false, and_true] at hmem
  obtain rfl | rfl | rfl | rfl := hmem
  · obtain ⟨ts, _, _, rfl, -, h₁, h₀⟩ := Pattern.exists_of_read_upTo hread
    obtain ⟨kw, _, _, rfl, hkw, h₂, rfl⟩ := Pattern.exists_of_read_oneOf h₁
    obtain ⟨kind, rfl⟩ :=
      exists_kind_of_mem_keywords (List.contains_iff_mem.1 hkw)
    obtain ⟨us, rfl, h₃⟩ := Pattern.exists_of_read_token h₂
    obtain ⟨-, rfl, rfl⟩ := Pattern.exists_of_read_rest h₃
    cases h₀
    obtain ⟨rfl, hpre, hpost⟩ := (ScopeForm.build_eq_iff rfl).1 hbuild
    obtain ⟨e, he, rfl⟩ := exists_of_map_eq_ok hpre
    obtain ⟨e', he', rfl⟩ := exists_of_map_eq_ok hpost
    exact .both _ he he'
  · obtain ⟨ts, _, _, rfl, -, h₁, h₀⟩ := Pattern.exists_of_read_upTo hread
    obtain ⟨kw, _, _, rfl, hkw, h₂, rfl⟩ := Pattern.exists_of_read_oneOf h₁
    obtain ⟨kind, rfl⟩ :=
      exists_kind_of_mem_keywords (List.contains_iff_mem.1 hkw)
    cases h₂
    cases h₀
    obtain ⟨rfl, hpre, ⟨⟩⟩ := (ScopeForm.build_eq_iff rfl).1 hbuild
    obtain ⟨e, he, rfl⟩ := exists_of_map_eq_ok hpre
    exact .pre _ he
  · obtain ⟨kw, _, _, rfl, hkw, h₁, h₀⟩ := Pattern.exists_of_read_oneOf hread
    obtain ⟨kind, rfl⟩ :=
      exists_kind_of_mem_keywords (List.contains_iff_mem.1 hkw)
    obtain ⟨us, rfl, h₂⟩ := Pattern.exists_of_read_token h₁
    obtain ⟨-, rfl, rfl⟩ := Pattern.exists_of_read_rest h₂
    cases h₀
    obtain ⟨rfl, ⟨⟩, hpost⟩ := (ScopeForm.build_eq_iff rfl).1 hbuild
    obtain ⟨e, he, rfl⟩ := exists_of_map_eq_ok hpost
    exact .post _ he
  · obtain ⟨kw, _, _, rfl, hkw, h₁, h₀⟩ := Pattern.exists_of_read_oneOf hread
    obtain ⟨kind, rfl⟩ :=
      exists_kind_of_mem_keywords (List.contains_iff_mem.1 hkw)
    cases h₁
    cases h₀
    obtain ⟨rfl, ⟨⟩, ⟨⟩⟩ := (ScopeForm.build_eq_iff rfl).1 hbuild
    exact .bare _

/-- The row that a scope is written for takes it, and no row before it does. -/
theorem parseScope_of_readWhole (slots : Slots)
    (hrow : scopeRules.readWhole ts = some ((), slots))
    (hkw : slots.lookup "kw" = some [s.kind.keyword])
    (hpre : recordedExpr? slots "pre" = .ok s.pre)
    (hpost : recordedExpr? slots "post" = .ok s.post) :
    parseScope ts = some (.ok s) := by
  rw [parseScope_eq, hrow]
  exact (ScopeForm.build_eq_iff hkw).2 ⟨rfl, hpre, hpost⟩

/-- A keyword is no run that `::` could end, unless one does. -/
theorem read_pre_keyword (kind : ScopeKind) (p : Row) (us : List Token) :
    Pattern.read
        ((Entry.sequence (Pattern.upTo "::")).named "pre" :: .token "::" :: p)
        (kind.keyword :: "::" :: us)
        = (Pattern.read p us).map (Pattern.record "pre" [kind.keyword]) := by
  have hclass : Bracket.opened? kind.keyword = none ∧
      Bracket.closed? kind.keyword = none ∧
      "::" ∉ [kind.keyword] := by
    cases kind <;> decide
  obtain ⟨ho, hc, hne⟩ := hclass
  have hgrow := (Pattern.balanced_token ho hc).grow_upTo_of_not_mem hne
    (List.cons_ne_nil _ _) us
  exact Pattern.read_upTo_of_grow hgrow

/-- An expression in front of the double colon is recorded up to it. It ends
there because it holds none itself and is balanced. -/
theorem read_pre_of_parseExpr (h : parseExpr ts = .ok e) (p : Row)
    (us : List Token) :
    Pattern.read
        ((Entry.sequence (Pattern.upTo "::")).named "pre" :: .token "::" :: p)
        (ts ++ "::" :: us)
        = (Pattern.read p us).map (Pattern.record "pre" ts) :=
  Pattern.read_upTo_of_grow ((balanced_of_parseExpr h).grow_upTo_of_not_mem
    (not_mem_of_parseExpr h (by decide)) (ne_nil_of_parseExpr h) us)

theorem read_keyword (kind : ScopeKind) (p : Row) (us : List Token) :
    Pattern.read ((Entry.oneOf ScopeKind.keywords).named "kw" :: p)
      (kind.keyword :: us)
      = (Pattern.read p us).map (Pattern.record "kw" [kind.keyword]) := by
  rw [Pattern.read_oneOf]
  exact if_pos (List.contains_iff_mem.2 (keyword_mem_keywords kind))

theorem read_post_of_parseExpr (h : parseExpr ts = .ok e) :
    Pattern.read [Entry.rest.named "post"] ts = some ([("post", ts)], []) := by
  rw [Pattern.read_rest, if_neg (by simpa using ne_nil_of_parseExpr h)]

/-- No expression begins with a keyword. -/
theorem read_keyword_of_parseExpr (h : parseExpr ts = .ok e) (p : Row) :
    Pattern.read ((Entry.oneOf ScopeKind.keywords).named "kw" :: p) ts
      = none := by
  rw [Pattern.read_oneOf]
  cases ts with
  | nil => rfl
  | cons t ts =>
    refine if_neg fun ht => ?_
    have hform : t ∈ formTokens :=
      List.mem_append_right _ (List.contains_iff_mem.1 ht)
    exact not_mem_of_parseExpr h hform List.mem_cons_self

/-- **A scope is read as it is written.** A keyword might be taken for an
expression in front of a double colon, and then the token behind it is no
keyword; an expression is no keyword, so the rows that begin with one pass it
over. -/
theorem ScopeForm.Written.parseScope (h : s.Written ts) :
    parseScope ts = some (.ok s) := by
  have hmap : ∀ {ts e}, parseExpr ts = .ok e →
      (parseExpr ts).map some = .ok (some e) := by
    intro ts e he
    rw [he]
    rfl
  cases h with
  | bare kind =>
    have hnone : ∀ p : Row, Entry.token "::" ∈ p →
        Pattern.readWhole p [kind.keyword] = none :=
      fun p hp => Pattern.readWhole_eq_none_of_not_mem hp
        (by cases kind <;> decide)
    refine parseScope_of_readWhole [("kw", [kind.keyword])] ?_ rfl rfl rfl
    unfold scopeRules
    rw [Rules.readWhole_cons_of_none (hnone _ (by simp)),
      Rules.readWhole_cons_of_none (hnone _ (by simp)),
      Rules.readWhole_cons_of_none (hnone _ (by simp))]
    exact Rules.readWhole_cons (read_keyword kind [] [])
  | @pre ts e kind h =>
    refine parseScope_of_readWhole [("pre", ts), ("kw", [kind.keyword])] ?_ rfl
      (hmap h) rfl
    have hpost : ∀ p : Row,
        Pattern.read ((Entry.sequence (Pattern.upTo "::")).named "pre" ::
        .token "::" :: (Entry.oneOf ScopeKind.keywords).named "kw"
        :: .token "::" :: p) (ts ++ ["::", kind.keyword]) = none := by
      intro p
      rw [read_pre_of_parseExpr h, read_keyword, Pattern.read_token]
      rfl
    unfold scopeRules
    rw [Rules.readWhole_cons_of_none (Pattern.readWhole_eq_none fun _ hread => by
      rw [hpost] at hread; cases hread)]
    refine Rules.readWhole_cons ?_
    rw [read_pre_of_parseExpr h, read_keyword]
    rfl
  | @post us e kind h =>
    refine parseScope_of_readWhole [("kw", [kind.keyword]), ("post", us)] ?_ rfl
      rfl (hmap h)
    -- The keyword itself would be the expression in front, with another
    -- keyword behind it.
    have hpre : ∀ p : Row,
        Pattern.read ((Entry.sequence (Pattern.upTo "::")).named "pre" ::
        .token "::" :: (Entry.oneOf ScopeKind.keywords).named "kw" :: p)
        (kind.keyword :: "::" :: us) = none := by
      intro p
      rw [read_pre_keyword, read_keyword_of_parseExpr h]
      rfl
    unfold scopeRules
    rw [Rules.readWhole_cons_of_none (Pattern.readWhole_eq_none fun _ hread => by
        rw [hpre] at hread; cases hread),
      Rules.readWhole_cons_of_none (Pattern.readWhole_eq_none fun _ hread => by
        rw [hpre] at hread; cases hread)]
    refine Rules.readWhole_cons ?_
    rw [read_keyword, Pattern.read_token]
    dsimp only
    rw [if_pos rfl, read_post_of_parseExpr h]
    rfl
  | @both ts us e e' kind h h' =>
    refine parseScope_of_readWhole [("pre", ts), ("kw", [kind.keyword]),
      ("post", us)] ?_ rfl (hmap h) (hmap h')
    refine Rules.readWhole_cons ?_
    rw [read_pre_of_parseExpr h, read_keyword, Pattern.read_token]
    dsimp only
    rw [if_pos rfl, read_post_of_parseExpr h']
    rfl

/-- **Tokens are read as a scope exactly if they are written as one.** Since
the scope can be read off the tokens, there is only one that is written so. -/
theorem parseScope_eq_some_ok_iff :
    parseScope ts = some (.ok s) ↔ s.Written ts :=
  ⟨written_of_parseScope, ScopeForm.Written.parseScope⟩

/-- An expression has no keyword, so it is no scope. -/
theorem parseScope_of_parseExpr (h : parseExpr ts = .ok e) :
    parseScope ts = none := by
  rw [parseScope_eq]
  cases hrow : scopeRules.readWhole ts with
  | none => rfl
  | some found =>
    obtain ⟨p, hmem, hread⟩ := Rules.exists_of_readWhole hrow
    have hkeyword : (Entry.oneOf ScopeKind.keywords).named "kw" ∈ p := by
      simp only [scopeRules, List.mem_cons, Prod.mk.injEq, List.not_mem_nil,
        or_false, and_true] at hmem
      obtain rfl | rfl | rfl | rfl := hmem <;> simp
    obtain ⟨t, ht, htext⟩ :=
      Pattern.exists_mem_of_read_oneOf hread hkeyword rfl rfl
    exact absurd ht (not_mem_of_parseExpr h (List.mem_append_right _ htext))

/-- What has to be a scope is read as one. -/
theorem requireScope_eq_ok_iff : requireScope ts = .ok s ↔ s.Written ts := by
  rw [← parseScope_eq_some_ok_iff, requireScope]
  cases parseScope ts with
  | none => exact iff_of_false nofun nofun
  | some found => exact (Option.some_inj).symm

end ReadScope

end StreamScript
