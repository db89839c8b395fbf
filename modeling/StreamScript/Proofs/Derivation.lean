import Mathlib.Data.List.Forall2
import StreamScript.Proofs.Brackets
import StreamScript.Proofs.Operands

/-!
# The grammar of expressions

Expressions are read by a table of patterns, of which the first that matches is
taken for good, and what stands in brackets is cut out before anyone looks into
it. What they are is said more simply: operands with operators between them,
where brackets hold an expression or a list (`Derives`). The two are the same
(`parseExpr_iff_derives`).

What is read is derived. This goes by the number of tokens, since an operand
looks into its brackets and behind its sign, where there are fewer
(`SoundBelow`). The expression that comes out also shows what it was read from:
written out in order, it gives the tokens back, with literals compared by value
(`Writes`). Folding the operators into a tree changes nothing about that
(`Alternation.pieces_reduce`).

What is derived is read. The one thing to see is that cutting does not cut
through a phrase: a phrase is balanced, so that a run of tokens that looks for
a closing bracket passes it whole, and it has no comma outside brackets unless
it is a list, so that splitting a list does not split its elements (`Whole`).
An operand is then read whatever follows it, with one exception: a bracket that
opens behind a name makes it a call. No operator is such a bracket.
-/

namespace StreamScript

open Pattern (Balanced Sealed splitTopLevel)

/-! ## The grammar

The grammar has three phrases. An operand is a literal, a name, a word, or
something in brackets; an expression is operands with operators between them; a
list is expressions with commas between them. There is nothing in it about what
the operators bind, or about which of several rows comes first. Whether
brackets match is not mentioned either: they come in pairs. -/

/-- **What the grammar derives.** There are three: what may stand between two
operators, an expression, and a list of expressions between commas. -/
inductive Phrase where
  | operand
  | expr
  | list
deriving DecidableEq, Repr

/-- **The grammar of expressions.** An expression is flat: operands with
operators between them, whatever the operators bind. That operators bind
differently is no part of it: it tells which token lists are expressions, not
which trees they are read as. -/
inductive Derives : Phrase → List Token → Prop
  | callNone {f : Token} (hf : isIdentifier f = true) :
      Derives .operand [f, "(", ")"]
  | call {f : Token} {ts : List Token} (hf : isIdentifier f = true)
      (h : Derives .list ts) :
      Derives .operand (f :: "(" :: (ts ++ [")"]))
  | group {ts : List Token} (h : Derives .expr ts) :
      Derives .operand ("(" :: (ts ++ [")"]))
  | arrayNone : Derives .operand ["[", "]"]
  | array {ts : List Token} (h : Derives .list ts) :
      Derives .operand ("[" :: (ts ++ ["]"]))
  | sign (op : UnaryOp) {ts : List Token} (h : Derives .operand ts) :
      Derives .operand (op.symbol :: ts)
  | number {t : Token} (ht : isNumberToken t = true) : Derives .operand [t]
  | text {t : Token} (ht : isStringToken t = true) : Derives .operand [t]
  | truth (b : Bool) : Derives .operand [toString b]
  | stream : Derives .operand ["stream"]
  | index : Derives .operand ["index"]
  | name {t : Token} (ht : isIdentifier t = true) : Derives .operand [t]
  | single {ts : List Token} (h : Derives .operand ts) : Derives .expr ts
  | infixed (op : BinaryOp) {ts us : List Token} (h : Derives .operand ts)
      (hs : Derives .expr us) : Derives .expr (ts ++ op.symbol :: us)
  | last {ts : List Token} (h : Derives .expr ts) : Derives .list ts
  | comma {ts us : List Token} (h : Derives .expr ts) (hs : Derives .list us) :
      Derives .list (ts ++ "," :: us)

/-! ## Expressions written out

An expression that was read can be written out again, in order. It does not
give back the spelling of its literals, since `1` and `1.0` are the same
number, and so a literal is compared by what it stands for. All other tokens
are given back as they were.

Before the operators are folded into a tree they stand in a row, and a row can
be written out as well. Folding joins an operator with its two neighbours,
which leaves what is written as it is. -/

/-- A piece of an expression that is written out. A literal is known by its
value alone. -/
inductive Piece where
  | token (t : Token)
  | number (x : Float)
  | text (s : String)

/-- **A token that a piece can stand for.** For a literal this is any spelling
of its value. A number may be written in many ways, and so may a text with
escapes; names, keywords and symbols are spelt in one way only. -/
def Piece.Reads : Piece → Token → Prop
  | token s, t => s = t
  | number x, t => isNumberToken t = true ∧ Number.ofChars? t.toList = some x
  | text s, t => isStringToken t = true ∧ unquote? t = some s

mutual

/-- **An expression written out**, in order. Brackets are kept in the tree as
`group`, so nothing has to be added to write it down. -/
def Expr.pieces : Expr → List Piece
  | .name n => [.token n]
  | .number x => [.number x]
  | .text s => [.text s]
  | .truth b => [.token (toString b)]
  | .stream => [.token "stream"]
  | .index => [.token "index"]
  | .unary op e => .token op.symbol :: e.pieces
  | .binary left op right => left.pieces ++ .token op.symbol :: right.pieces
  | .call f es => .token f :: .token "(" :: (listPieces es ++ [.token ")"])
  | .array es => .token "[" :: (listPieces es ++ [.token "]"])
  | .group e => .token "(" :: (e.pieces ++ [.token ")"])

/-- Expressions written out with commas between them. -/
def Expr.listPieces : List Expr → List Piece
  | [] => []
  | [e] => e.pieces
  | e :: e' :: es => e.pieces ++ .token "," :: listPieces (e' :: es)

end

/-- An alternation written out. -/
def Alternation.pieces (a : Alternation) : List Piece :=
  a.head.pieces ++ a.tail.flatMap fun (op, e) => .token op.symbol :: e.pieces

theorem Alternation.pieces_cons (e : Expr) (op : BinaryOp) (a : Alternation) :
    Alternation.pieces ⟨e, (op, a.head) :: a.tail⟩
      = e.pieces ++ .token op.symbol :: a.pieces := by
  simp [Alternation.pieces]

/-- Joining across operators leaves what is written. The induction is on the
tail of the row: an operator of the level goes into the expression on its left,
and any other stays where it is. -/
theorem Alternation.pieces_joinLevel (level : Nat) (left : Expr)
    (tail : List (BinaryOp × Expr)) :
    (joinLevel level left tail).pieces = Alternation.pieces ⟨left, tail⟩ := by
  induction tail generalizing left with
  | nil => rfl
  | cons pair rest ih =>
    obtain ⟨op, right⟩ := pair
    rw [joinLevel]
    split
    · rw [ih]
      simp [Alternation.pieces, Expr.pieces]
    · rw [Alternation.pieces_cons, ih]
      exact (Alternation.pieces_cons left op ⟨right, rest⟩).symm

/-- Joining does not change what is written. -/
theorem Alternation.pieces_foldl_joinLevel (levels : List Nat)
    (a : Alternation) :
    (levels.foldl (fun a level => joinLevel level a.head a.tail) a).pieces
    = a.pieces := by
  induction levels generalizing a with
  | nil => rfl
  | cons level levels ih =>
    exact (ih _).trans (pieces_joinLevel level a.head a.tail)

theorem Alternation.operators_foldl_joinLevel (levels : List Nat)
    (a : Alternation) :
    (levels.foldl (fun a level => joinLevel level a.head a.tail) a).operators
      = a.operators.filter fun op => op.level ∉ levels := by
  induction levels generalizing a with
  | nil => simp
  | cons level levels ih =>
    rw [List.foldl_cons, ih, operators_joinLevel, List.filter_filter]
    refine List.filter_congr fun op _ => ?_
    simp [not_or, Bool.and_comm]

/-- **A tree is written as the alternation it was made of.** When all levels
have been joined no operator is left, so that the head is everything. Joining
two operands changes the tree and leaves the row of pieces as it is; this is
why the grammar need not know of precedence. -/
theorem Alternation.pieces_reduce (a : Alternation) :
    a.reduce.pieces = a.pieces := by
  rw [← pieces_foldl_joinLevel levels a]
  -- Every operator has been joined across.
  have hnone :
      (levels.foldl (fun a level => joinLevel level a.head a.tail) a).operators
      = [] := by
    rw [operators_foldl_joinLevel]
    refine List.filter_eq_nil_iff.2 fun op _ => ?_
    cases op <;> decide
  have htail := List.map_eq_nil_iff.1 hnone
  unfold Alternation.pieces
  rw [htail, List.flatMap_nil, List.append_nil]
  rfl

/-! ## Alternations and lists that are read

The readers say more than is needed here, how much is left and why it is less.
Their equations are restated without that: an alternation is an operand alone,
or one followed by an operator and an alternation; a list is read part by part
after it has been split. -/

section Read

variable {ts rest : List Token} {e : Expr} {a : Alternation} {es : List Expr}
    {op : BinaryOp}

theorem readOperand_eq_ok_iff :
    readOperand ts = .ok (e, rest) ↔ ∃ h,
      parseOperand ts = .ok (e, ⟨rest, h⟩) := by
  unfold readOperand
  constructor
  · intro h
    obtain ⟨⟨e', rest', hlt⟩, hparse, ⟨⟩⟩ := exists_of_map_eq_ok h
    exact ⟨hlt, hparse⟩
  · rintro ⟨hlt, hparse⟩
    rw [hparse]
    rfl

theorem parseAlternation_of_nil (h : readOperand ts = .ok (e, [])) :
    parseAlternation ts = .ok ⟨e, []⟩ := by
  obtain ⟨hlt, hparse⟩ := readOperand_eq_ok_iff.1 h
  rw [parseAlternation, hparse]

theorem parseAlternation_of_cons
    (h : readOperand ts = .ok (e, op.symbol :: rest)) (hne : rest ≠ [])
    (ha : parseAlternation rest = .ok a) :
    parseAlternation ts = .ok ⟨e, (op, a.head) :: a.tail⟩ := by
  obtain ⟨hlt, hparse⟩ := readOperand_eq_ok_iff.1 h
  rw [parseAlternation, hparse]
  dsimp only
  rw [BinaryOp.ofToken?_symbol]
  dsimp only
  rw [if_neg (by rwa [List.isEmpty_iff]), ha]

/-- **An alternation is an operand**, or an operand, an operator and an
alternation. What follows the operator is read as an alternation and not as an
expression, so the levels are joined once, when the whole row is there. -/
theorem exists_of_parseAlternation (h : parseAlternation ts = .ok a) :
    (∃ e, readOperand ts = .ok (e, []) ∧ a = ⟨e, []⟩) ∨
    ∃ e op rest a', readOperand ts = .ok (e, op.symbol :: rest) ∧
      parseAlternation rest = .ok a' ∧ a = ⟨e, (op, a'.head) :: a'.tail⟩ := by
  rw [parseAlternation] at h
  split at h
  · cases h
  · next e hlt hparse =>
    exact .inl ⟨e, readOperand_eq_ok_iff.2 ⟨hlt, hparse⟩,
      (Except.ok.inj h).symm⟩
  · next e t rest hlt hparse =>
    split at h
    · cases h
    · next op hop =>
      obtain rfl := BinaryOp.symbol_of_ofToken? hop
      split at h
      · cases h
      · split at h
        · next a' ha' =>
          exact .inr ⟨e, op, rest, a',
            readOperand_eq_ok_iff.2 ⟨hlt, hparse⟩, ha', (Except.ok.inj h).symm⟩
        · cases h

/-- An expression is an alternation that has been folded, and takes all tokens.
-/
theorem parseExpr_eq_ok_iff :
    parseExpr ts = .ok e ↔ ts ≠ [] ∧ ∃ a, parseAlternation ts = .ok a ∧
      a.reduce = e := by
  rw [parseExpr]
  split
  · next hnil => simp [List.isEmpty_iff.1 hnil]
  · next hcons =>
    rw [List.isEmpty_iff] at hcons
    cases parseAlternation ts <;> simp [hcons]

/-- Parts are read one by one, each by itself. -/
theorem parseParts_eq_ok_iff {parts : List (PartOf ts)} :
    parseParts parts = .ok es ↔
      List.Forall₂ (fun part e => parseExpr part = .ok e)
      (parts.map Subtype.val) es := by
  induction parts generalizing es with
  | nil =>
    rw [parseParts, List.map_nil, List.forall₂_nil_left_iff, Except.ok.injEq,
      eq_comm]
  | cons part parts ih =>
    rw [parseParts, List.map_cons, List.forall₂_cons_left_iff]
    constructor
    · intro h
      split at h
      · next e he =>
        split at h
        · next es' hes =>
          exact ⟨e, es', he, ih.1 hes, (Except.ok.inj h).symm⟩
        · cases h
      · cases h
    · rintro ⟨e, es', he, hes, rfl⟩
      rw [he, ih.2 hes]

/-- **A list is read part by part.** It is cut at the commas that no bracket
encloses before any part is looked at, which is why balance has to be spoken of
below. -/
theorem parseList_eq_ok_iff :
    parseList ts = .ok es ↔
      List.Forall₂ (fun part e => parseExpr part = .ok e) (splitTopLevel "," ts)
      es := by
  rw [parseList, parseParts_eq_ok_iff, map_val_partsOf]

end Read

/-! ## What is read is derived

An operand looks into its brackets and behind its sign. There it finds fewer
tokens than it has itself, and so the four readers are sound together, by
induction on a bound on the number of tokens. Each step is one reader, with the
others sound below. -/

/-- **Tokens the grammar derives**, as which some pieces can be written. The
two halves answer two questions: whether these tokens are an expression at all,
and whether they say what the tree says. -/
def Writes (phrase : Phrase) (pieces : List Piece) (ts : List Token) : Prop :=
  Derives phrase ts ∧ List.Forall₂ Piece.Reads pieces ts

theorem forall₂_enclosed {opener closer : Token} {pieces : List Piece}
    {ts : List Token} (h : List.Forall₂ Piece.Reads pieces ts) :
    List.Forall₂ Piece.Reads (.token opener :: (pieces ++ [.token closer]))
      (opener :: (ts ++ [closer])) :=
  .cons rfl (List.rel_append h (.cons rfl .nil))

theorem forall₂_separated {t : Token} {left right : List Piece}
    {ts us : List Token} (h : List.Forall₂ Piece.Reads left ts)
    (hs : List.Forall₂ Piece.Reads right us) :
    List.Forall₂ Piece.Reads (left ++ .token t :: right) (ts ++ t :: us) :=
  List.rel_append h (.cons rfl hs)

/-- **Reading fewer than `n` tokens** yields what the grammar derives. An
operand may contain an expression and an expression is made of operands, so all
the readers are shown to be sound together. -/
structure SoundBelow (n : Nat) : Prop where
  operand : ∀ ts e rest, ts.length < n → readOperand ts = .ok (e, rest) →
    ∃ front, ts = front ++ rest ∧ Writes .operand e.pieces front
  alternation : ∀ ts a, ts.length < n → parseAlternation ts = .ok a →
    Writes .expr a.pieces ts
  expr : ∀ ts e, ts.length < n → parseExpr ts = .ok e → Writes .expr e.pieces ts
  list : ∀ ts es, ts.length < n → parseList ts = .ok es →
    Writes .list (Expr.listPieces es) ts

section Sound

variable {n : Nat} {ts rest : List Token} {e : Expr} {a : Alternation}
    {es : List Expr}

/-- If reading is sound for fewer tokens it is sound for one more: an operand
in brackets or behind a sign is shorter, -/
theorem SoundBelow.operand_next (h : SoundBelow n) (hlt : ts.length < n + 1)
    (hread : readOperand ts = .ok (e, rest)) :
    ∃ front, ts = front ++ rest ∧ Writes .operand e.pieces front := by
  have hinside : ∀ front {inner last : List Token},
      ts = front ++ inner ++ last → front ≠ [] →
      inner.length < n := by
    rintro front inner last rfl hne
    have hpos := List.length_pos_of_ne_nil hne
    simp only [List.length_append] at hlt
    omega
  cases operandAhead_of_readOperand hread with
  | @callNone f _ hf =>
    exact ⟨[f, "(", ")"], rfl, .callNone hf, (forall₂_enclosed .nil).cons rfl⟩
  | @call f ts es _ hf hlist =>
    obtain ⟨hderives, hreads⟩ := h.list ts es (hinside [f, "("] rfl nofun) hlist
    exact ⟨f :: "(" :: (ts ++ [")"]), by simp, .call hf hderives,
      (forall₂_enclosed hreads).cons rfl⟩
  | @group ts e _ hexpr =>
    obtain ⟨hderives, hreads⟩ := h.expr ts e (hinside ["("] rfl nofun) hexpr
    exact ⟨"(" :: (ts ++ [")"]), by
      simp, .group hderives, forall₂_enclosed hreads⟩
  | arrayNone => exact ⟨["[", "]"], rfl, .arrayNone, forall₂_enclosed .nil⟩
  | @array ts es _ hlist =>
    obtain ⟨hderives, hreads⟩ := h.list ts es (hinside ["["] rfl nofun) hlist
    exact ⟨"[" :: (ts ++ ["]"]), by
      simp, .array hderives, forall₂_enclosed hreads⟩
  | @sign op ts e _ hoperand =>
    have hrest : ts.length < n := Nat.lt_of_succ_lt_succ hlt
    obtain ⟨front, rfl, hderives, hreads⟩ := h.operand ts e rest hrest hoperand
    exact ⟨op.symbol :: front, rfl, .sign op hderives, .cons rfl hreads⟩
  | @number t x _ ht hx => exact ⟨[t], rfl, .number ht, .cons ⟨ht, hx⟩ .nil⟩
  | @text t s _ ht hs => exact ⟨[t], rfl, .text ht, .cons ⟨ht, hs⟩ .nil⟩
  | truth b => exact ⟨[toString b], rfl, .truth b, .cons rfl .nil⟩
  | stream => exact ⟨["stream"], rfl, .stream, .cons rfl .nil⟩
  | index => exact ⟨["index"], rfl, .index, .cons rfl .nil⟩
  | @name t _ ht => exact ⟨[t], rfl, .name ht, .cons rfl .nil⟩

/-- an alternation is an operand, an operator and a shorter alternation, -/
theorem SoundBelow.alternation_next (h : SoundBelow n) (hlt : ts.length < n + 1)
    (hread : parseAlternation ts = .ok a) : Writes .expr a.pieces ts := by
  obtain ⟨e, hoperand, rfl⟩ | ⟨e, op, rest, a', hoperand, hrest, rfl⟩ :=
    exists_of_parseAlternation hread
  · obtain ⟨front, rfl, hderives, hreads⟩ := h.operand_next hlt hoperand
    rw [List.append_nil]
    refine ⟨.single hderives, ?_⟩
    rwa [Alternation.pieces, List.flatMap_nil, List.append_nil]
  · obtain ⟨front, rfl, hderives, hreads⟩ := h.operand_next hlt hoperand
    have hshorter : rest.length < n := by
      simp only [List.length_append, List.length_cons] at hlt
      omega
    obtain ⟨hderives', hreads'⟩ := h.alternation rest a' hshorter hrest
    rw [Alternation.pieces_cons]
    exact ⟨.infixed op hderives hderives', forall₂_separated hreads hreads'⟩

/-- an expression is an alternation, -/
theorem SoundBelow.expr_next (h : SoundBelow n) (hlt : ts.length < n + 1)
    (hread : parseExpr ts = .ok e) : Writes .expr e.pieces ts := by
  obtain ⟨-, a, ha, rfl⟩ := parseExpr_eq_ok_iff.1 hread
  rw [Alternation.pieces_reduce]
  exact h.alternation_next hlt ha

/-- Parts with commas between them are a list. That they are the parts a list
was split into follows from putting the commas back. -/
theorem writes_intercalate {parts : List (List Token)} (hne : parts ≠ [])
    (h : List.Forall₂ (fun part e => Writes .expr e.pieces part) parts es) :
    Writes .list (Expr.listPieces es) (List.intercalate [","] parts) := by
  induction h with
  | nil => exact absurd rfl hne
  | @cons part e parts es hpart hparts ih =>
    cases hparts with
    | nil =>
      rw [List.intercalate_singleton, Expr.listPieces]
      exact ⟨.last hpart.1, hpart.2⟩
    | @cons part' e' parts es hpart' hparts =>
      rw [Pattern.intercalate_cons part (List.cons_ne_nil part' parts),
        Expr.listPieces]
      obtain ⟨hderives, hreads⟩ := ih (List.cons_ne_nil part' parts)
      exact ⟨.comma hpart.1 hderives, forall₂_separated hpart.2 hreads⟩

/-- and a list is cut into shorter parts. -/
theorem SoundBelow.list_next (h : SoundBelow n) (hlt : ts.length < n + 1)
    (hread : parseList ts = .ok es) : Writes .list (Expr.listPieces es) ts := by
  have hparts := parseList_eq_ok_iff.1 hread
  rw [← Pattern.intercalate_splitTopLevel "," ts]
  refine writes_intercalate (Pattern.splitFrom_ne_nil "," 0 [] ts) ?_
  have hshorter : ∀ part ∈ splitTopLevel "," ts,
      part.length < n + 1 := fun part hpart =>
    Nat.lt_of_le_of_lt (Pattern.length_le_of_mem_splitTopLevel hpart) hlt
  exact ((List.forall₂_and_left _ _).2 ⟨hshorter, hparts⟩).imp
    fun part e hpart =>
    h.expr_next hpart.1 hpart.2

/-- **Reading is sound**, by induction on the number of tokens. An expression
inside an operand has fewer tokens, by the brackets around it at least. -/
theorem soundBelow (n : Nat) : SoundBelow n := by
  induction n with
  | zero => exact ⟨nofun, nofun, nofun, nofun⟩
  | succ n ih =>
    exact ⟨fun _ _ _ => ih.operand_next, fun _ _ => ih.alternation_next,
      fun _ _ => ih.expr_next, fun _ _ => ih.list_next⟩

end Sound

/-! ## What is derived is read

Here the induction is on the derivation. For each way to derive a phrase, its
parts are read, and it has to be seen that the reader cuts out these parts and
no others. This is the matter of `Whole`: a phrase is balanced, so that runs do
not stop inside it, and sealed against commas, so that it is not split. A list
has commas, and is sealed only in brackets (`Phrase.least`). -/

/-- A token that neither brackets nor separates anything. -/
def Plain (t : Token) : Prop :=
  Bracket.opened? t = none ∧ Bracket.closed? t = none ∧ t ≠ ","

instance (t : Token) : Decidable (Plain t) :=
  inferInstanceAs (Decidable (_ ∧ _))

theorem Plain.ne {t : Token} (h : Plain t) : t ≠ "(" := by
  rintro rfl
  exact absurd h.1 (by decide)

/-- A class of tokens without brackets and without the comma. Being in the
class is decided for five tokens, and no other can be a bracket or the comma.
-/
theorem plain_of_class {p : Token → Bool} {t : Token} (ht : p t = true)
    (hp : ∀ s ∈ ["(", ")", "[", "]", ","], p s = false) : Plain t := by
  have hne : ∀ s ∈ ["(", ")", "[", "]", ","], t ≠ s := by
    rintro s hs rfl
    rw [hp t hs] at ht
    cases ht
  simp only [List.forall_mem_cons, List.not_mem_nil, false_imp_iff,
    implies_true, and_true] at hne
  obtain ⟨hround, hround', hsquare, hsquare', hcomma⟩ := hne
  exact ⟨by rw [Bracket.opened?, if_neg hround, if_neg hsquare],
    by rw [Bracket.closed?, if_neg hround', if_neg hsquare'], hcomma⟩

theorem plain_symbol (op : BinaryOp) : Plain op.symbol := by
  cases op <;> decide

/-- **Tokens that stay together** where brackets are cut out, and where a list
`least` brackets deep or deeper is split at its commas. A derived phrase is
balanced, and its commas are inside brackets unless it is a list. So the
bracket that ends a phrase is found where the phrase ends, and a list is cut
between its items. -/
structure Whole (least : Nat) (ts : List Token) : Prop where
  balanced : Balanced ts
  sealed : Sealed "," least ts

section Whole

variable {least : Nat} {t opener closer : Token} {kind : Bracket}
    {ts us : List Token}

theorem whole_nil (least : Nat) : Whole least [] :=
  ⟨fun _ => rfl, fun _ _ _ _ => rfl⟩

theorem Plain.whole (h : Plain t) : Whole 0 [t] :=
  ⟨Pattern.balanced_token h.1 h.2.1, Pattern.sealed_token h.1 h.2.1 h.2.2⟩

theorem Whole.mono (h : Whole 0 ts) : Whole least ts :=
  ⟨h.balanced, h.sealed.mono (Nat.zero_le least)⟩

theorem Whole.append (h : Whole least ts) (h' : Whole least us) :
    Whole least (ts ++ us) :=
  ⟨h.balanced.append h'.balanced, h.sealed.append h'.sealed⟩

/-- In brackets everything is whole, whatever separators it holds. -/
theorem Whole.enclosed (h : Whole 1 ts)
    (ho : Bracket.opened? opener = some kind)
    (hc : Bracket.closed? closer = some kind) :
    Whole 0 (opener :: (ts ++ [closer])) :=
  ⟨h.balanced.enclosed ho hc, h.sealed.enclosed ho hc⟩

theorem Whole.round (h : Whole 1 ts) : Whole 0 ("(" :: (ts ++ [")"])) :=
  h.enclosed (show Bracket.opened? "(" = some .round by decide) (by decide)

theorem Whole.square (h : Whole 1 ts) : Whole 0 ("[" :: (ts ++ ["]"])) :=
  h.enclosed (show Bracket.opened? "[" = some .square by decide) (by decide)

end Whole

/-- How deep a phrase has to be in brackets to stay together. -/
def Phrase.least : Phrase → Nat
  | operand | expr => 0
  | list => 1

section Complete

variable {phrase : Phrase} {ts : List Token}

/-- Nothing derives from no token. -/
theorem Derives.ne_nil (h : Derives phrase ts) : ts ≠ [] := by
  induction h with
  | single _ ih | last _ ih => exact ih
  | infixed | comma =>
    exact List.append_ne_nil_of_right_ne_nil _ (List.cons_ne_nil _ _)
  | _ => exact List.cons_ne_nil _ _

/-- **A phrase stays together.** Brackets enclose what is inside, and an
operator or a comma between two phrases adds one token that is plain, or that
is sealed inside brackets. -/
theorem Derives.whole (h : Derives phrase ts) : Whole phrase.least ts := by
  induction h with
  | callNone hf =>
    exact (plain_of_class hf (by decide)).whole.append (whole_nil 1).round
  | call hf _ ih => exact (plain_of_class hf (by decide)).whole.append ih.round
  | group _ ih => exact ih.mono.round
  | arrayNone => exact (whole_nil 1).square
  | array _ ih => exact ih.square
  | sign op _ ih =>
    have hplain : Plain op.symbol := by cases op <;> decide
    exact hplain.whole.append ih
  | number ht => exact (plain_of_class ht (by decide)).whole
  | text ht => exact (plain_of_class ht (by decide)).whole
  | truth b =>
    have hplain : Plain (toString b) := by cases b <;> decide
    exact hplain.whole
  | stream => exact (show Plain "stream" by decide).whole
  | index => exact (show Plain "index" by decide).whole
  | name ht => exact (plain_of_class ht (by decide)).whole
  | single _ ih => exact ih
  | infixed op _ _ ih ihs =>
    exact ih.append ((plain_symbol op).whole.append ihs)
  | last _ ih => exact ih.mono
  | comma _ _ ih ihs =>
    have hcomma : Whole 1 [","] :=
      ⟨Pattern.balanced_token (by decide) (by decide),
        Pattern.sealed_sep (by decide) (by decide)⟩
    exact ih.mono.append (hcomma.append ihs)

/-- **Reading a phrase succeeds.** What follows an operand may be anything but
a bracket that would make a call of its name. An operand is read off the front
of tokens that go on; the other phrases are read as a whole. -/
def Phrase.Read : Phrase → List Token → Prop
  | operand, ts => ∀ rest : List Token, rest.head? ≠ some "(" →
      ∃ e, readOperand (ts ++ rest) = .ok (e, rest)
  | expr, ts => ∃ a, parseAlternation ts = .ok a
  | list, ts => ∃ es, parseList ts = .ok es

theorem exists_parseExpr_of_derives (h : Derives .expr ts)
    (hread : Phrase.expr.Read ts) :
    ∃ e, parseExpr ts = .ok e := by
  obtain ⟨a, ha⟩ := hread
  exact ⟨a.reduce, parseExpr_eq_ok_iff.2 ⟨h.ne_nil, a, ha, rfl⟩⟩

/-- **Every phrase is read.** In an operand what follows matters only behind a
name. In an expression it is an operator that follows, and in brackets it is
the closing one, so it is never the bracket of a call. -/
theorem Derives.read (h : Derives phrase ts) : phrase.Read ts := by
  induction h with
  | @callNone f hf => exact fun rest _ => ⟨.call f [], readOperand_callNone hf⟩
  | @call f ts hf h ih =>
    intro rest _
    obtain ⟨es, hes⟩ := ih
    refine ⟨.call f es, ?_⟩
    simpa using readOperand_call hf h.whole.balanced h.ne_nil hes
  | @group ts h ih =>
    intro rest _
    obtain ⟨e, he⟩ := exists_parseExpr_of_derives h ih
    refine ⟨.group e, ?_⟩
    simpa using readOperand_group h.whole.balanced h.ne_nil he
  | arrayNone => exact fun rest _ => ⟨.array [], readOperand_arrayNone⟩
  | @array ts h ih =>
    intro rest _
    obtain ⟨es, hes⟩ := ih
    refine ⟨.array es, ?_⟩
    simpa using readOperand_array h.whole.balanced h.ne_nil hes
  | @sign op ts h ih =>
    intro rest hrest
    obtain ⟨e, he⟩ := ih rest hrest
    exact ⟨.unary op e, readOperand_sign op he⟩
  | number ht =>
    obtain ⟨x, hx⟩ := exists_ofChars?_of_isNumberToken ht
    exact fun rest _ => ⟨.number x, readOperand_number ht hx⟩
  | text ht =>
    obtain ⟨s, hs⟩ := exists_unquote?_of_isStringToken ht
    exact fun rest _ => ⟨.text s, readOperand_text ht hs⟩
  | truth b => exact fun rest _ => ⟨.truth b, readOperand_truth b⟩
  | stream => exact fun rest _ => ⟨.stream, readOperand_stream⟩
  | index => exact fun rest _ => ⟨.index, readOperand_index⟩
  | @name t ht => exact fun rest hrest => ⟨.name t, readOperand_name ht hrest⟩
  | single h ih =>
    obtain ⟨e, he⟩ := ih [] nofun
    rw [List.append_nil] at he
    exact ⟨⟨e, []⟩, parseAlternation_of_nil he⟩
  | @infixed op ts us h hs ih ihs =>
    have hrest : (op.symbol :: us).head? ≠ some "(" := fun heq =>
      (plain_symbol op).ne (Option.some.inj heq)
    obtain ⟨e, he⟩ := ih (op.symbol :: us) hrest
    obtain ⟨a, ha⟩ := ihs
    exact ⟨_, parseAlternation_of_cons he hs.ne_nil ha⟩
  | @last ts h ih =>
    obtain ⟨e, he⟩ := exists_parseExpr_of_derives h ih
    refine ⟨[e], parseList_eq_ok_iff.2 ?_⟩
    rw [h.whole.sealed.splitTopLevel]
    exact .cons he .nil
  | @comma ts us h hs ih ihs =>
    obtain ⟨e, he⟩ := exists_parseExpr_of_derives h ih
    obtain ⟨es, hes⟩ := ihs
    refine ⟨e :: es, parseList_eq_ok_iff.2 ?_⟩
    rw [h.whole.sealed.splitTopLevel_cons (by decide) (by decide)]
    exact .cons he (parseList_eq_ok_iff.1 hes)

end Complete

/-- **Expressions are read exactly if the grammar derives them, and read
whole.** The same is true of lists. And what is read gives back all tokens, in
order, each as itself or as a literal of the same value. -/
theorem parseExpr_iff_derives :
    (∀ ts, (∃ e, parseExpr ts = .ok e) ↔ Derives .expr ts) ∧
    (∀ ts, (∃ es, parseList ts = .ok es) ↔ Derives .list ts) ∧
    ∀ ts e, parseExpr ts = .ok e → List.Forall₂ Piece.Reads e.pieces ts := by
  have hsound := fun ts : List Token => soundBelow (ts.length + 1)
  refine ⟨fun ts => ⟨?_, fun h => exists_parseExpr_of_derives h h.read⟩,
    fun ts => ⟨?_, fun h => h.read⟩, fun ts e he => ?_⟩
  · rintro ⟨e, he⟩
    exact ((hsound ts).expr ts e (Nat.lt_succ_self _) he).1
  · rintro ⟨es, hes⟩
    exact ((hsound ts).list ts es (Nat.lt_succ_self _) hes).1
  · exact ((hsound ts).expr ts e (Nat.lt_succ_self _) he).2

/-- `scale(1, -[]) + "a"` is derived, hence read, hence given back. -/
theorem scaleTokens_given_back :
    ∃ e, parseExpr ["scale", "(", "1", ",", "-", "[", "]", ")", "+", "\"a\""]
      = .ok e ∧
      List.Forall₂ Piece.Reads e.pieces
        ["scale", "(", "1", ",", "-", "[", "]", ")", "+", "\"a\""] := by
  have harguments : Derives .list ["1", ",", "-", "[", "]"] :=
    .comma (.single (.number (by decide)))
      (.last (.single (.sign .negate .arrayNone)))
  have hexpr : Derives .expr ["scale", "(", "1", ",", "-", "[", "]", ")", "+",
      "\"a\""] :=
    .infixed .add (.call (by decide) harguments) (.single (.text (by decide)))
  obtain ⟨e, he⟩ := (parseExpr_iff_derives.1 _).2 hexpr
  exact ⟨e, he, parseExpr_iff_derives.2.2 _ e he⟩

end StreamScript
