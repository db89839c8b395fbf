import Mathlib.Data.List.TakeWhile
import StreamScript.Proofs.Operands
import StreamScript.Proofs.Scans

/-!
# A line in pieces

A line falls into pieces: blanks, and tokens. Each piece is what the first rule
of the lexer to take anything takes where the piece begins (`Cut`), so that a
line has one way to fall into pieces, and the lexer finds it
(`tokensFrom_of_cut`). Where no rule takes anything the pieces end; if that is
in front of the end of the line, it is an error (`lexLine_reads`).

Tokens have no classes, and the grammar tells them apart by looking at them. It
sees what the lexer saw: what a class has taken the predicates of that class
cover (`covers_of_takes`), and those of no other, because the first character
of a token already decides (`TokenClass.leadBy_of_covers`). For quoted strings
this rests on how they are made up between their quotes (`Inside`): a backslash
goes with the character behind it, and any other character stands alone and is
no quote.
-/

namespace StreamScript

open Pattern (Scan FirstTakes firstPrefix)

/-! ## Classes as the grammar sees them

The lexer forgets which rule has taken a token, and the grammar asks again with
predicates of its own. The predicates do not overlap: the first character of a
token is a quote, a digit, a letter or another character that begins a word, or
none of these. -/

namespace TokenClass

/-- **What the grammar takes for a token of a class.** These are the predicates
by which the rows of the grammar tell tokens apart. They look at the text of a
token alone, not at the rule of the lexer that has made it. -/
def Covers : TokenClass → Token → Prop
  | .space, _ => False
  | .text, t => isStringToken t = true
  | .symbol, t => t ∈ twoCharSymbols ++ oneCharSymbols
  | .number, t => isNumberToken t = true
  | .word, t => isWordToken t = true

/-- The class of the tokens that begin with a character. -/
def leadBy (c : Char) : TokenClass :=
  if c = '"' then .text
  else if Number.isDigit c then .number
  else if startsWord c then .word
  else .symbol

/-- **The first character of a token decides** which predicates cover it. So a
token is covered by one of them at most, and the class of a token is known from
its text. -/
theorem leadBy_of_covers {k : TokenClass} {t : Token} (h : k.Covers t) :
    t.toList.head?.map leadBy = some k := by
  have ofAny : ∀ p : Char → Bool, (∀ c, p c = true → leadBy c = k) →
      t.toList.head?.any p = true → t.toList.head?.map leadBy = some k := by
    intro p hp hany
    cases hc : t.toList.head? with
    | none =>
      rw [hc] at hany
      cases hany
    | some c =>
      rw [hc] at hany
      exact congrArg some (hp c hany)
  cases k with
  | space => cases h
  | text =>
    simp only [Covers, isStringToken, Bool.and_eq_true, beq_iff_eq] at h
    rw [h.1.2]
    rfl
  | symbol =>
    have hall : ∀ s ∈ twoCharSymbols ++ oneCharSymbols,
        s.toList.head?.map leadBy = some .symbol := by decide
    exact hall t h
  | number =>
    refine ofAny Number.isDigit (fun c hc => ?_) (head?_of_isNumberToken h)
    have hne : c ≠ '"' := by
      rintro rfl
      cases hc
    rw [leadBy, if_neg hne, if_pos hc]
  | word =>
    simp only [Covers, isWordToken, isWordText, Bool.and_eq_true] at h
    refine ofAny startsWord (fun c hc => ?_) h.1
    have hne : c ≠ '"' := by
      rintro rfl
      cases hc
    have hdigit : ¬ Number.isDigit c = true := fun hdigit => by
      rw [startsWord_eq_false_of_isDigit hdigit] at hc
      cases hc
    rw [leadBy, if_neg hne, if_neg hdigit, if_pos hc]

/-- No token is covered by the predicates of two classes. -/
theorem eq_of_covers {k l : TokenClass} {t : Token} (hk : k.Covers t)
    (hl : l.Covers t) : k = l :=
  Option.some.inj ((leadBy_of_covers hk).symm.trans (leadBy_of_covers hl))

end TokenClass

/-! ## The inside of a quoted string

While a quoted string grows it is asked after each character whether it is
closed. That goes from its beginning each time, with an eye on backslashes.
Said at once, the inside consists of single characters and of pairs with a
backslash in front; this is an inductive predicate, and both the growing and
the decoding are followed along it. -/

/-- **The inside of a quoted string**, one character or one escape at a time. A
backslash and the character behind it go together, whatever that character is;
in particular a quote behind a backslash does not close the string. -/
inductive Inside : List Char → Prop
  | nil : Inside []
  | plain {c : Char} {cs : List Char} (hquote : c ≠ '"') (hslash : c ≠ '\\')
      (h : Inside cs) :
      Inside (c :: cs)
  | escape (c : Char) {cs : List Char} (h : Inside cs) :
      Inside ('\\' :: c :: cs)

/-- Behind an inside the search for the closing quote begins anew. -/
theorem Inside.closesAtEnd_append {inside : List Char} (h : Inside inside)
    (rest : List Char) :
    closesAtEnd (inside ++ rest) = closesAtEnd rest := by
  induction h with
  | nil => rfl
  | plain hquote hslash _ ih =>
    rw [List.cons_append, closesAtEnd, ih] <;> simp [hquote, hslash]
  | escape c _ ih => rw [List.cons_append, List.cons_append, closesAtEnd, ih]

/-- **What is closed at its end** is an inside and a quote. The search for the
closing quote passes over escapes two characters at a time. It finds the end of
the text only if it has not met a quote before. -/
theorem closesAtEnd_iff {cs : List Char} :
    closesAtEnd cs = true ↔ ∃ inside, cs = inside ++ ['"'] ∧ Inside inside := by
  constructor
  · intro h
    fun_induction closesAtEnd cs with
    | case1 => cases h
    | case2 rest =>
      rw [List.isEmpty_iff.1 h]
      exact ⟨[], rfl, .nil⟩
    | case3 c rest ih =>
      obtain ⟨inside, rfl, hinside⟩ := ih h
      exact ⟨'\\' :: c :: inside, rfl, .escape c hinside⟩
    | case4 => cases h
    | case5 c rest hquote hescape hslash ih =>
      obtain ⟨inside, rfl, hinside⟩ := ih h
      refine ⟨c :: inside, rfl, .plain hquote (fun heq => ?_) hinside⟩
      cases hcs : inside ++ ['"'] with
      | nil => exact hslash heq hcs
      | cons d ds => exact hescape d ds heq hcs
  · rintro ⟨inside, rfl, hinside⟩
    rw [hinside.closesAtEnd_append]
    rfl

/-- **What is judged to be a quoted string** is an inside between quotes. The
scan grows a text by one character after the other and asks each time whether
it is a string yet. That there is only one answer for each beginning is what
makes the scan take one string and not more. -/
theorem judgeQuoted_eq_accept_iff {taken : List Char} {next : Option Char} :
    judgeQuoted taken next = .accept ↔
      ∃ inside, taken = '"' :: (inside ++ ['"']) ∧ Inside inside := by
  constructor
  · intro h
    unfold judgeQuoted at h
    split at h
    · next cs =>
      split at h
      · next hcloses =>
        obtain ⟨inside, rfl, hinside⟩ := closesAtEnd_iff.1 hcloses
        exact ⟨inside, rfl, hinside⟩
      · split at h <;> cases h
    · cases h
  · rintro ⟨inside, rfl, hinside⟩
    show (if closesAtEnd (inside ++ ['"']) = true then _ else _) = _
    rw [if_pos (closesAtEnd_iff.2 ⟨inside, rfl, hinside⟩)]

/-- An inside between quotes is a quoted string for the grammar. -/
theorem isStringToken_enclosed (inside : List Char) :
    isStringToken (String.ofList ('"' :: (inside ++ ['"']))) = true := by
  have hlast : ('"' :: (inside ++ ['"'])).getLast? = some '"' := by
    rw [← List.cons_append, List.getLast?_concat]
  simp [isStringToken, hlast]

/-- What the rule for quoted strings takes is an inside between quotes. -/
theorem exists_inside_of_takes {scan : Scan}
    (hrule : (scan, TokenClass.text) ∈ tokenRules) {cs taken : List Char}
    (h : scan.Takes cs taken) :
    ∃ inside, taken = '"' :: (inside ++ ['"']) ∧ Inside inside := by
  simp only [tokenRules, List.mem_cons, Prod.mk.injEq, List.not_mem_nil,
    or_false, reduceCtorEq, and_false, and_true, false_or] at hrule
  subst hrule
  obtain ⟨-, _, -, haccept, -⟩ := h
  exact judgeQuoted_eq_accept_iff.1 haccept

/-! ## What the rules take

Each class has one rule, but for the symbols, which have two. What a rule takes
is covered by the predicate of its class, because rule and predicate are about
the same characters; only for quoted strings do they put it differently. -/

/-- **What a rule of the lexer takes** the predicates of its class cover. So
the grammar never meets a token of which it cannot say what it is. -/
theorem covers_of_takes {scan : Scan} {k : TokenClass}
    (hrule : (scan, k) ∈ tokenRules) (hk : k ≠ .space) {cs taken : List Char}
    (h : scan.Takes cs taken) :
    k.Covers (String.ofList taken) := by
  have hrules := hrule
  simp only [tokenRules, List.mem_cons, Prod.mk.injEq, List.not_mem_nil,
    or_false] at hrules
  obtain ⟨rfl, rfl⟩ | ⟨rfl, rfl⟩ | ⟨rfl, rfl⟩ | ⟨rfl, rfl⟩ | ⟨rfl, rfl⟩ |
      ⟨rfl, rfl⟩ := hrules
  · exact absurd rfl hk
  · obtain ⟨inside, rfl, -⟩ := exists_inside_of_takes hrule h
    exact isStringToken_enclosed inside
  · obtain ⟨front, back, htexts, -⟩ := h
    have hmem : taken ∈ twoCharSymbols.map String.toList := by simp [htexts]
    obtain ⟨s, hs, rfl⟩ := List.mem_map.1 hmem
    rw [String.ofList_toList]
    exact List.mem_append_left _ hs
  · obtain ⟨front, back, htexts, -⟩ := h
    have hmem : taken ∈ oneCharSymbols.map String.toList := by simp [htexts]
    obtain ⟨s, hs, rfl⟩ := List.mem_map.1 hmem
    rw [String.ofList_toList]
    exact List.mem_append_right _ hs
  · obtain ⟨-, -, haccepts, -⟩ := h
    exact (congrArg isNumberText String.toList_ofList).trans haccepts
  · obtain ⟨-, hrun, haccepts, -⟩ := h
    show (isWordText _ && _) = true
    rw [String.toList_ofList, haccepts, Bool.true_and]
    exact List.all_eq_true.2 fun c hc => List.mem_takeWhile_imp (hrun.subset hc)

/-- The same where the rule is the first to take anything. -/
theorem covers_of_firstTakes {k : TokenClass} (hk : k ≠ .space)
    {cs taken : List Char} (h : FirstTakes tokenRules cs k taken) :
    k.Covers (String.ofList taken) := by
  obtain ⟨front, scan, back, hrules, htakes, -⟩ := h
  exact covers_of_takes
    (hrules ▸ List.mem_append_right front List.mem_cons_self) hk htakes

/-- What the rule for blanks takes is blank. -/
theorem isBlank_of_takes {scan : Scan}
    (hrule : (scan, TokenClass.space) ∈ tokenRules) {cs taken : List Char}
    (h : scan.Takes cs taken) : ∀ c ∈ taken, Text.isBlank c = true := by
  simp only [tokenRules, List.mem_cons, Prod.mk.injEq, List.not_mem_nil,
    or_false, reduceCtorEq, and_false, and_true] at hrule
  subst hrule
  obtain ⟨-, hrun, -⟩ := h
  exact fun c hc => List.mem_takeWhile_imp (hrun.subset hc)

/-! ## Cutting a text

A cut is a derivation that a text falls into pieces: at each place the first
rule that takes anything takes the next piece. It has no choice, and it ends
where no rule takes anything or where it is told to end. -/

/-- A piece of a line, with the class that took it. -/
abbrev LinePiece : Type := TokenClass × List Char

namespace LinePiece

/-- The token that a piece is; blanks are none. -/
def token? : LinePiece → Option Token
  | (.space, _) => none
  | (_, taken) => some (String.ofList taken)

end LinePiece

/-- The tokens among some pieces. -/
def tokensOf (pieces : List LinePiece) : List Token :=
  pieces.filterMap LinePiece.token?

/-- A token among some pieces is one of them. -/
theorem exists_of_mem_tokensOf {pieces : List LinePiece} {t : Token}
    (h : t ∈ tokensOf pieces) :
    ∃ k taken, (k, taken) ∈ pieces ∧ k ≠ .space ∧ t = String.ofList taken := by
  obtain ⟨⟨k, taken⟩, hmem, htoken⟩ := List.mem_filterMap.1 h
  cases k with
  | space => cases htoken
  | text | symbol | number | word =>
    exact ⟨_, taken, hmem, nofun, (Option.some.inj htoken).symm⟩

/-- **A text cut into pieces**, up to a rest: each piece is what the first rule
to take anything takes where the piece begins. Nothing is said of the rest. It
may be empty, it may be what no rule takes, or the cut may just not have gone
further. -/
inductive Cut : List Char → List LinePiece → List Char → Prop
  | here (rest : List Char) : Cut rest [] rest
  | piece {k : TokenClass} {taken cs : List Char} {pieces : List LinePiece}
      {rest : List Char} (takes : FirstTakes tokenRules (taken ++ cs) k taken)
      (cut : Cut cs pieces rest) :
      Cut (taken ++ cs) ((k, taken) :: pieces) rest

/-- A piece is never empty. -/
theorem ne_nil_of_firstTakes {k : TokenClass} {cs taken : List Char}
    (h : FirstTakes tokenRules cs k taken) : taken ≠ [] :=
  (Pattern.prefix_of_firstPrefix proper_of_mem_tokenRules
    (Pattern.firstPrefix_eq_some_iff.2 h)).1

namespace Cut

variable {cs rest : List Char} {pieces : List LinePiece}

/-- **The pieces and the rest are the whole text.** The pieces are cut out one
behind the other, and blanks are pieces as well. -/
theorem append_eq (h : Cut cs pieces rest) :
    cs = pieces.flatMap Prod.snd ++ rest := by
  induction h with
  | here => rfl
  | piece _ _ ih => rw [List.flatMap_cons, List.append_assoc, ← ih]

/-- Each piece is cut off in front of something. -/
theorem exists_firstTakes (h : Cut cs pieces rest) {k : TokenClass}
    {taken : List Char} (hmem : (k, taken) ∈ pieces) :
    ∃ behind, FirstTakes tokenRules (taken ++ behind) k taken := by
  induction h with
  | here => cases hmem
  | @piece k' taken' cs' pieces' rest' takes _ ih =>
    obtain heq | hmem := List.mem_cons.1 hmem
    · cases heq
      exact ⟨cs', takes⟩
    · exact ih hmem

/-- What a rule has to do with the pieces that it takes holds of them. -/
theorem of_mem (h : Cut cs pieces rest) {k : TokenClass} {taken : List Char}
    (hmem : (k, taken) ∈ pieces) :
    ∃ scan at_, (scan, k) ∈ tokenRules ∧ scan.Takes at_ taken := by
  obtain ⟨behind, front, scan, back, hrules, htakes, -⟩ :=
    h.exists_firstTakes hmem
  exact ⟨scan, taken ++ behind,
    hrules ▸ List.mem_append_right front List.mem_cons_self, htakes⟩

/-- There are no more pieces than characters. -/
theorem length_le (h : Cut cs pieces rest) : pieces.length ≤ cs.length := by
  induction h with
  | here => exact Nat.zero_le _
  | piece takes _ ih =>
    have := List.length_pos_iff.2 (ne_nil_of_firstTakes takes)
    rw [List.length_cons, List.length_append]
    omega

end Cut

/-- **Every text can be cut into pieces** up to where no rule takes anything. A
piece is not empty, so there are fewer characters left behind each. The rest is
then empty or the place of the error. -/
theorem exists_cut (cs : List Char) :
    ∃ pieces rest, Cut cs pieces rest ∧ ∀ k taken,
      ¬ FirstTakes tokenRules rest k taken := by
  induction hn : cs.length using Nat.strong_induction_on generalizing cs with
  | _ n ih =>
    by_cases h : ∃ k taken, FirstTakes tokenRules cs k taken
    · obtain ⟨k, taken, htakes⟩ := h
      obtain ⟨hne, more, rfl⟩ :=
        Pattern.prefix_of_firstPrefix proper_of_mem_tokenRules
        (Pattern.firstPrefix_eq_some_iff.2 htakes)
      have hlt : more.length < n := by
        have := List.length_pos_iff.2 hne
        rw [List.length_append] at hn
        omega
      obtain ⟨pieces, rest, hcut, hend⟩ := ih _ hlt more rfl
      exact ⟨(k, taken) :: pieces, rest, .piece htakes hcut, hend⟩
    · exact ⟨[], cs, .here cs, fun k taken htakes => h ⟨k, taken, htakes⟩⟩

/-! ## The lexer

The lexer looks for the first rule at each place, takes the piece and goes on.
Blanks are passed over, all other pieces become tokens. -/

/-- The lexer takes one piece. -/
theorem tokensFrom_of_firstTakes {k : TokenClass} {taken cs : List Char}
    (h : FirstTakes tokenRules (taken ++ cs) k taken) (line : Nat)
    (done : List Token) :
    tokensFrom line done (taken ++ cs) =
      tokensFrom line ((LinePiece.token? (k, taken)).toList ++ done) cs := by
  have hfirst := Pattern.firstPrefix_eq_some_iff.2 h
  have hne : ¬ (taken ++ cs).isEmpty = true := fun hempty =>
    ne_nil_of_firstTakes h
      (List.append_eq_nil_iff.1 (List.isEmpty_iff.1 hempty)).1
  rw [tokensFrom, if_neg hne]
  split
  · next heq =>
    rw [hfirst] at heq
    cases heq
  · next heq =>
    rw [hfirst] at heq
    cases heq
    rw [List.drop_left]
    rfl
  · next hspace heq =>
    rw [hfirst] at heq
    cases heq
    rw [List.drop_left]
    cases k <;> first | rfl | exact absurd rfl hspace

/-- **The lexer takes piece after piece.** The tokens are collected in reverse,
and a blank piece adds none. -/
theorem tokensFrom_of_cut {cs rest : List Char} {pieces : List LinePiece}
    (h : Cut cs pieces rest) (line : Nat) (done : List Token) :
    tokensFrom line done cs
    = tokensFrom line ((tokensOf pieces).reverse ++ done) rest := by
  induction h generalizing done with
  | here => rfl
  | @piece k taken cs pieces rest takes _ ih =>
    rw [tokensFrom_of_firstTakes takes, ih, tokensOf, tokensOf,
      List.filterMap_cons]
    cases LinePiece.token? (k, taken) with
    | none => rfl
    | some t => simp

/-- Where no rule takes anything the lexer ends. If that is in front of the end
of the line, what is left begins with a quote that is not closed, or with a
character of no class. -/
theorem tokensFrom_of_end {rest : List Char}
    (h : ∀ k taken, ¬ FirstTakes tokenRules rest k taken) (line : Nat)
    (done : List Token) :
    tokensFrom line done rest =
      if rest = [] then .ok done.reverse
      else .error (lexErrorAt line rest) := by
  have hnone : firstPrefix tokenRules rest = none := by
    rw [Option.eq_none_iff_forall_ne_some]
    rintro ⟨k, taken⟩ hsome
    exact h k taken (Pattern.firstPrefix_eq_some_iff.1 hsome)
  rw [tokensFrom]
  by_cases hrest : rest = []
  · rw [if_pos hrest, if_pos (List.isEmpty_iff.2 hrest)]
  · rw [if_neg hrest, if_neg (mt List.isEmpty_iff.1 hrest)]
    split
    · rfl
    · next heq =>
      rw [hnone] at heq
      cases heq
    · next heq =>
      rw [hnone] at heq
      cases heq

/-! ## Lines

A line has an indentation, and behind it a comment or tokens. The indentation
is counted in characters, and the pieces begin behind it. -/

/-- A line that is no comment has the tokens that are found behind its leading
blanks. -/
theorem lexLine_of_tokensFrom {text : String} {line : Nat} {tokens : List Token}
    (hhead : (Text.trimStart text.toList).head? ≠ some '#')
    (hlex : tokensFrom line [] (Text.trimStart text.toList) = .ok tokens) :
    lexLine text line
    = .ok ⟨(Text.indent text.toList).length, tokens, text⟩ := by
  unfold lexLine
  rw [if_neg hhead, hlex]

/-- A line in tokens is a comment, or it falls into pieces to its end. -/
theorem exists_cut_of_lexLine {text : String} {line : Nat} {l : LexLine}
    (h : lexLine text line = .ok l) :
    l.tokens = [] ∨
      ∃ pieces, Cut (Text.trimStart text.toList) pieces [] ∧
        l.tokens = tokensOf pieces := by
  unfold lexLine at h
  dsimp only at h
  split at h
  · cases h
    exact .inl rfl
  · obtain ⟨pieces, rest, hcut, hend⟩ := exists_cut (Text.trimStart text.toList)
    rw [tokensFrom_of_cut hcut, tokensFrom_of_end hend] at h
    by_cases hrest : rest = []
    · subst hrest
      rw [if_pos rfl, List.append_nil, List.reverse_reverse] at h
      cases h
      exact .inr ⟨pieces, hcut, rfl⟩
    · rw [if_neg hrest] at h
      cases h

/-- A token that the lexer cuts off somewhere. -/
def IsCutOff (t : Token) : Prop :=
  ∃ k behind, k ≠ .space ∧ FirstTakes tokenRules (t.toList ++ behind) k t.toList

/-- The tokens of a line are cut off somewhere. -/
theorem isCutOff_of_lexLine {text : String} {line : Nat} {l : LexLine}
    (h : lexLine text line = .ok l) {t : Token} (ht : t ∈ l.tokens) :
    IsCutOff t := by
  obtain hnone | ⟨pieces, hcut, htokens⟩ := exists_cut_of_lexLine h
  · rw [hnone] at ht
    cases ht
  · rw [htokens] at ht
    obtain ⟨k, taken, hmem, hk, rfl⟩ := exists_of_mem_tokensOf ht
    obtain ⟨behind, htakes⟩ := hcut.exists_firstTakes hmem
    exact ⟨k, behind, hk, String.toList_ofList.symm ▸ htakes⟩

/-- **A line read up to a rest**: the blanks it begins with, pieces, and the
rest. Which pieces and which rest these are the text decides alone, for each
piece is what the first rule that takes anything takes. -/
structure ReadUpTo (text : String) (pieces : List LinePiece)
    (rest : List Char) : Prop where
  /-- Nothing of the line is lost. -/
  whole :
    text.toList = Text.indent text.toList ++ pieces.flatMap Prod.snd ++ rest
  /-- Each piece is what the first rule to take anything takes where it
  begins. -/
  cut : Cut (Text.trimStart text.toList) pieces rest
  /-- Between the tokens there are only blanks. -/
  blank : ∀ taken, (TokenClass.space, taken) ∈ pieces → ∀ c ∈ taken,
    Text.isBlank c = true
  /-- Each token is of one class for the grammar, the one that took it. -/
  covered : ∀ k taken, (k, taken) ∈ pieces → k ≠ .space →
    ∀ l : TokenClass, l.Covers (String.ofList taken) ↔ l = k
  /-- No cut goes through a character. -/
  boundary : ∀ n, (String.ofList (Text.indent text.toList ++
    (pieces.take n).flatMap Prod.snd)).rawEndPos.IsValid text
  /-- There are no more pieces than characters. -/
  length_le : pieces.length ≤ text.toList.length

/-- What is cut off behind the leading blanks is read. The pieces lie one
behind the other, so no cut goes through a character. -/
theorem Cut.readUpTo {text : String} {pieces : List LinePiece}
    {rest : List Char} (h : Cut (Text.trimStart text.toList) pieces rest) :
    ReadUpTo text pieces rest := by
  have hwhole : text.toList = Text.indent text.toList ++ pieces.flatMap Prod.snd
      ++ rest := by
    rw [List.append_assoc, ← h.append_eq, Text.indent_append_trimStart]
  refine ⟨hwhole, h, fun taken hmem => ?_, fun k taken hmem hk l => ?_,
    fun n => ?_, ?_⟩
  · obtain ⟨scan, _, hrule, htakes⟩ := h.of_mem hmem
    exact isBlank_of_takes hrule htakes
  · obtain ⟨scan, _, hrule, htakes⟩ := h.of_mem hmem
    have hcovers := covers_of_takes hrule hk htakes
    exact ⟨fun hl => TokenClass.eq_of_covers hl hcovers, fun hl => hl ▸ hcovers⟩
  · refine String.Pos.Raw.isValid_iff_exists_append.2
      ⟨_, String.ofList ((pieces.drop n).flatMap Prod.snd ++ rest), ?_, rfl⟩
    rw [← String.ofList_append, ← List.append_assoc,
      List.append_assoc (Text.indent _), ← List.flatMap_append,
      List.take_append_drop, ← hwhole, String.ofList_toList]
  · exact h.length_le.trans (List.dropWhile_sublist _).length_le

/-- **A line is read to its end, or up to where no rule takes anything.** A
rest that is not empty is reported, as a string without an end if it begins
with a quote. A line that begins with `#` is a comment and is not read at all.
-/
theorem lexLine_reads {text : String}
    (h : (Text.trimStart text.toList).head? ≠ some '#') (line : Nat) :
    ∃ pieces rest, ReadUpTo text pieces rest ∧
      (∀ rule ∈ tokenRules, ∀ taken, ¬ rule.1.Takes rest taken) ∧
      lexLine text line =
        if rest = []
        then .ok ⟨(Text.indent text.toList).length, tokensOf pieces, text⟩
        else .error (if rest.head? = some '"' then .unterminatedString line
          else .unmatched line (String.ofList rest)) := by
  obtain ⟨pieces, rest, hcut, hend⟩ := exists_cut (Text.trimStart text.toList)
  refine ⟨pieces, rest, hcut.readUpTo, ?_, ?_⟩
  · refine Pattern.firstPrefix_eq_none_iff.1
      (Option.eq_none_iff_forall_ne_some.2 ?_)
    rintro ⟨k, taken⟩ hsome
    exact hend k taken (Pattern.firstPrefix_eq_some_iff.1 hsome)
  · have hlex : tokensFrom line [] (Text.trimStart text.toList) =
        if rest = [] then .ok (tokensOf pieces)
        else .error (lexErrorAt line rest) := by
      rw [tokensFrom_of_cut hcut, tokensFrom_of_end hend, List.append_nil,
        List.reverse_reverse]
    unfold lexLine
    rw [if_neg h, hlex]
    by_cases hrest : rest = []
    · rw [if_pos hrest, if_pos hrest]
    · rw [if_neg hrest, if_neg hrest]
      rfl

/-- An escaped quote, two symbols that begin alike, and a number that gives its
last character back: all but the last `@` is read. -/
theorem lexLine_reads_up_to_stray :
    (Text.trimStart "\t \"a\\\"b\"::1.5e @".toList).head? ≠ some '#' ∧
      ∃ pieces rest, ReadUpTo "\t \"a\\\"b\"::1.5e @" pieces rest ∧
        (∀ rule ∈ tokenRules, ∀ taken, ¬ rule.1.Takes rest taken) ∧
        lexLine "\t \"a\\\"b\"::1.5e @" 7 =
          if rest = []
            then .ok ⟨(Text.indent "\t \"a\\\"b\"::1.5e @".toList).length,
              tokensOf pieces, "\t \"a\\\"b\"::1.5e @"⟩
          else .error (if rest.head? = some '"' then .unterminatedString 7
            else .unmatched 7 (String.ofList rest)) :=
  ⟨by decide, lexLine_reads (by decide) 7⟩

end StreamScript
