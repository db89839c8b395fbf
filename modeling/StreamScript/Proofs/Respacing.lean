import StreamScript.Proofs.Literals

/-!
# Tokens written back with other gaps

Where the lexer ends a token depends on what stands behind it: it takes the
longest number and the longest word, and a symbol of two characters before one
of one. Once a token has been cut off, what stood behind it is of no further
use. In front of a blank, or at the end of the line, the same rule takes the
same token, and no earlier rule takes anything there
(`firstTakes_before_blank`), because blanks are taken by the rule for blanks
and inside quotes only.

So the tokens of a line can be written back with any gaps between them, as long
as there are gaps (`Spaced`), and what results is a line with the same tokens
(`respaced_tokens`).
-/

namespace StreamScript

open Pattern (Scan FirstTakes)

/-- A gap between tokens: nothing but blanks. -/
def IsGap (cs : List Char) : Prop :=
  ∀ c ∈ cs, Text.isBlank c = true

instance (cs : List Char) : Decidable (IsGap cs) :=
  decidable_of_iff (cs.all Text.isBlank = true) List.all_eq_true

/-- Whether a text could follow a gap: it is empty or begins with a blank. -/
def OpensWithBlank (cs : List Char) : Prop :=
  ∀ c, cs.head? = some c → Text.isBlank c = true

/-! ## Characters that are not blank

Which characters are blank is a question about all of Unicode, but all that a
token begins with is visible in ASCII: a quote, a digit, what begins a word or a
symbol. None of these is blank, and blanks are in none of the classes that
numbers and words go on with.
-/

/-- The visible characters of ASCII are not blank. -/
theorem isBlank_eq_false_of_visible {c : Char} (hlow : 0x21 ≤ c.toNat)
    (hhigh : c.toNat ≤ 0x7E) :
    Text.isBlank c = false := by
  simp only [Text.isBlank, Bool.or_eq_false_iff, Bool.and_eq_false_iff,
    decide_eq_false_iff_not, beq_eq_false_iff_ne]
  omega

/-- Digits are visible characters. -/
theorem isBlank_eq_false_of_isDigit {c : Char} (h : Number.isDigit c = true) :
    Text.isBlank c = false := by
  simp only [Number.isDigit, Bool.and_eq_true, decide_eq_true_eq] at h
  have hlow : 0x30 ≤ c.toNat := h.1
  have hhigh : c.toNat ≤ 0x39 := h.2
  exact isBlank_eq_false_of_visible (by omega) (by omega)

/-- So are the characters that begin a word. -/
theorem isBlank_eq_false_of_startsWord {c : Char} (h : startsWord c = true) :
    Text.isBlank c = false := by
  simp only [startsWord, isLetter, Bool.or_eq_true, Bool.and_eq_true,
    decide_eq_true_eq, beq_iff_eq] at h
  obtain ((⟨hlow, hhigh⟩ | ⟨hlow, hhigh⟩) | rfl) | rfl := h
  · have hlow : 0x61 ≤ c.toNat := hlow
    have hhigh : c.toNat ≤ 0x7A := hhigh
    exact isBlank_eq_false_of_visible (by omega) (by omega)
  · have hlow : 0x41 ≤ c.toNat := hlow
    have hhigh : c.toNat ≤ 0x5A := hhigh
    exact isBlank_eq_false_of_visible (by omega) (by omega)
  · decide
  · decide

/-- A blank ends a number. -/
theorem isNumberChar_eq_false_of_isBlank {c : Char}
    (h : Text.isBlank c = true) :
    isNumberChar c = false := by
  rw [Bool.eq_false_iff]
  intro hc
  simp only [isNumberChar, Bool.or_eq_true, beq_iff_eq] at hc
  obtain ((((hdigit | rfl) | rfl) | rfl) | rfl) | rfl := hc
  · rw [isBlank_eq_false_of_isDigit hdigit] at h
    cases h
  all_goals exact absurd h (by decide)

/-- A blank ends a word. -/
theorem isWordChar_eq_false_of_isBlank {c : Char} (h : Text.isBlank c = true) :
    isWordChar c = false := by
  rw [Bool.eq_false_iff]
  intro hc
  rw [isWordChar, Bool.or_eq_true] at hc
  obtain hletter | hdigit := hc
  · rw [isBlank_eq_false_of_startsWord hletter] at h
    cases h
  · rw [isBlank_eq_false_of_isDigit hdigit] at h
    cases h

/-- The characters of symbols are not blank, and no comment begins with one. -/
theorem visible_of_mem_symbols {s : String}
    (hs : s ∈ twoCharSymbols ++ oneCharSymbols) {c : Char} (hc : c ∈ s.toList) :
    Text.isBlank c = false ∧ c ≠ '#' := by
  have hall : ∀ s ∈ twoCharSymbols ++ oneCharSymbols,
      s.toList.all (fun c => !Text.isBlank c && c != '#') = true := by
      decide +kernel
  simpa using List.all_eq_true.1 (hall s hs) c hc

/-- No token begins with a blank, or as a comment does. -/
theorem head?_of_covers {k : TokenClass} {t : Token} (h : k.Covers t) {c : Char}
    (hc : t.toList.head? = some c) : Text.isBlank c = false ∧ c ≠ '#' := by
  cases k with
  | space => cases h
  | text =>
    rw [head?_of_isStringToken h] at hc
    obtain rfl := Option.some.inj hc
    decide
  | symbol => exact visible_of_mem_symbols h (List.mem_of_mem_head? hc)
  | number =>
    have hdigit := head?_of_isNumberToken h
    rw [hc] at hdigit
    exact ⟨isBlank_eq_false_of_isDigit hdigit, by rintro rfl; cases hdigit⟩
  | word =>
    simp only [TokenClass.Covers, isWordToken, isWordText,
      Bool.and_eq_true] at h
    have hletter := h.1
    rw [hc] at hletter
    exact ⟨isBlank_eq_false_of_startsWord hletter, by rintro rfl; cases hletter⟩

/-! ## Rules in front of a blank

A rule is asked about a text that has been cut off before, now with a blank
behind it. It still takes the token, since the token is there in full and
nothing can be taken beyond it. That the earlier rules still take nothing needs
more: a rule which takes something in front of a blank would have taken
something in front of whatever stood there before. -/

section Behind

variable {taken behind rest p : List Char}

/-- A text without blanks does not reach into what opens with one. If it did, a
blank would stand in it. -/
theorem isPrefix_of_openWithBlank (hrest : OpensWithBlank rest)
    (hp : ∀ c ∈ p, Text.isBlank c = false) (h : p <+: taken ++ rest) :
    p <+: taken := by
  obtain hshort | ⟨more, rfl⟩ :=
    List.prefix_or_prefix_of_prefix h (List.prefix_append taken rest)
  · exact hshort
  · cases more with
    | nil => exact ⟨[], by rw [List.append_nil, List.append_nil]⟩
    | cons c more =>
      obtain ⟨rest', rfl⟩ := (List.prefix_append_right_inj taken).1 h
      have hblank := hrest c rfl
      rw [hp c (List.mem_append_right taken List.mem_cons_self)] at hblank
      cases hblank

/-- The symbols hold no blanks. -/
theorem not_blank_of_mem_symbols {texts : List (List Char)}
    (hrule : (Scan.literal texts, TokenClass.symbol) ∈ tokenRules) :
    ∀ t ∈ texts, ∀ c ∈ t, Text.isBlank c = false := by
  simp only [tokenRules, List.mem_cons, Prod.mk.injEq, List.not_mem_nil,
    or_false, reduceCtorEq, and_false, and_true, false_or,
    Scan.literal.injEq] at hrule
  intro t ht c hc
  obtain rfl | rfl := hrule
  · obtain ⟨s, hs, rfl⟩ := List.mem_map.1 ht
    exact (visible_of_mem_symbols (List.mem_append_left _ hs) hc).1
  · obtain ⟨s, hs, rfl⟩ := List.mem_map.1 ht
    exact (visible_of_mem_symbols (List.mem_append_right _ hs) hc).1

/-- A longest prefix is taken again in front of what cannot continue it. It
need not have been the longest for the same reason: before, something may have
stood behind it that is no number together with it. -/
theorem takes_longest {grows : Char → Bool} {accepts : List Char → Bool}
    (hrest : ∀ c, rest.head? = some c → grows c = false) {cs : List Char}
    (h : (Scan.longest grows accepts).Takes cs taken) :
    (Scan.longest grows accepts).Takes (taken ++ rest) taken := by
  obtain ⟨hne, hrun, haccepts, -⟩ := h
  have hgrows : ∀ c ∈ taken, grows c = true := fun c hc =>
    List.mem_takeWhile_imp (hrun.subset hc)
  have hall : (taken ++ rest).takeWhile grows = taken := by
    rw [List.takeWhile_append_of_pos hgrows]
    cases rest with
    | nil => rw [List.takeWhile_nil, List.append_nil]
    | cons c rest =>
      rw [List.takeWhile_cons_of_neg (by simp [hrest c rfl]), List.append_nil]
  refine ⟨hne, ?_, haccepts, fun p hp _ => ?_⟩
  · exact ⟨[], by rw [hall, List.append_nil]⟩
  · rw [hall] at hp
    exact hp.length_le

/-- A text is taken again in front of a blank. -/
theorem takes_literal {texts : List (List Char)}
    (htexts : ∀ t ∈ texts, ∀ c ∈ t, Text.isBlank c = false)
    (hrest : OpensWithBlank rest)
    (h : (Scan.literal texts).Takes (taken ++ behind) taken) :
    (Scan.literal texts).Takes (taken ++ rest) taken := by
  obtain ⟨front, back, rfl, -, hfront⟩ := h
  refine ⟨front, back, rfl, List.prefix_append taken rest,
    fun t ht hp => hfront t ht ?_⟩
  have hshort :=
    isPrefix_of_openWithBlank hrest (htexts t (List.mem_append_left _ ht)) hp
  exact hshort.trans (List.prefix_append taken behind)

/-- Where one of some texts can be taken, one of them is. -/
theorem exists_takes_literal {texts : List (List Char)} {cs : List Char}
    (hmem : p ∈ texts) (hp : p <+: cs) :
    ∃ q, (Scan.literal texts).Takes cs q := by
  by_contra hnone
  rw [not_exists, ← Scan.take?_eq_none_iff] at hnone
  exact List.find?_eq_none.1 hnone p hmem (List.isPrefixOf_iff_prefix.2 hp)

/-- **A rule takes a token again** in front of a blank. There is a case for
every rule but that of blanks. -/
theorem takes_before_blank {scan : Scan} {k : TokenClass}
    (hrule : (scan, k) ∈ tokenRules) (hk : k ≠ .space)
    (hrest : OpensWithBlank rest) (h : scan.Takes (taken ++ behind) taken) :
    scan.Takes (taken ++ rest) taken := by
  have hrules := hrule
  simp only [tokenRules, List.mem_cons, Prod.mk.injEq, List.not_mem_nil,
    or_false] at hrules
  obtain ⟨rfl, rfl⟩ | ⟨rfl, rfl⟩ | ⟨rfl, rfl⟩ | ⟨rfl, rfl⟩ | ⟨rfl, rfl⟩ |
      ⟨rfl, rfl⟩ := hrules
  · exact absurd rfl hk
  · obtain ⟨inside, rfl, hinside⟩ := exists_inside_of_takes hrule h
    exact hinside.takes rest
  · exact takes_literal (not_blank_of_mem_symbols hrule) hrest h
  · exact takes_literal (not_blank_of_mem_symbols hrule) hrest h
  · exact takes_longest
      (fun c hc => isNumberChar_eq_false_of_isBlank (hrest c hc)) h
  · exact takes_longest
      (fun c hc => isWordChar_eq_false_of_isBlank (hrest c hc)) h

/-- Only the symbols have more than one rule. -/
theorem eq_or_literal_of_same_class {scan scan' : Scan} {k : TokenClass}
    (hrule : (scan, k) ∈ tokenRules) (hrule' : (scan', k) ∈ tokenRules) :
    scan' = scan ∨ k = .symbol ∧ ∃ texts, scan' = .literal texts := by
  simp only [tokenRules, List.mem_cons, Prod.mk.injEq, List.not_mem_nil,
    or_false] at hrule hrule'
  obtain ⟨rfl, rfl⟩ | ⟨rfl, rfl⟩ | ⟨rfl, rfl⟩ | ⟨rfl, rfl⟩ | ⟨rfl, rfl⟩ |
      ⟨rfl, rfl⟩ := hrule'
  case inr.inr.inl | inr.inr.inr.inl => exact .inr ⟨rfl, _, rfl⟩
  all_goals
    simp only [reduceCtorEq, and_false, and_true, or_false, false_or] at hrule
    exact .inl hrule.symm

/-- **A token is cut off again** in front of a blank: the same rule takes it,
and no earlier one takes anything. -/
theorem firstTakes_before_blank {k : TokenClass} (hk : k ≠ .space)
    (hrest : OpensWithBlank rest)
    (h : FirstTakes tokenRules (taken ++ behind) k taken) :
    FirstTakes tokenRules (taken ++ rest) k taken := by
  have hne := ne_nil_of_firstTakes h
  obtain ⟨front, scan, back, hrules, htakes, hfront⟩ := h
  have hrule : (scan, k) ∈ tokenRules :=
    hrules ▸ List.mem_append_right front List.mem_cons_self
  refine ⟨front, scan, back, hrules,
    takes_before_blank hrule hk hrest htakes, ?_⟩
  rintro ⟨scan', k'⟩ hmem p htakes'
  have hrule' : (scan', k') ∈ tokenRules := hrules ▸ List.mem_append_left _ hmem
  obtain ⟨hp, hprefix⟩ :=
    Scan.prefix_of_take? (proper_of_mem_tokenRules _ hrule')
    (scan'.take?_eq_some_iff.2 htakes')
  obtain ⟨c, taken, rfl⟩ := List.exists_cons_of_ne_nil hne
  obtain ⟨d, p, rfl⟩ := List.exists_cons_of_ne_nil hp
  obtain rfl : d = c := (List.cons_prefix_cons.1 hprefix).1
  have hcovers := covers_of_takes hrule hk htakes
  have hlead := TokenClass.leadBy_of_covers hcovers
  have hvisible := head?_of_covers hcovers (c := d)
  simp only [String.toList_ofList] at hlead hvisible
  -- The first character is no blank, and it decides about the class.
  by_cases hspace : k' = .space
  · subst hspace
    have hblank := isBlank_of_takes hrule' htakes' d List.mem_cons_self
    rw [(hvisible rfl).1] at hblank
    cases hblank
  · have hlead' :=
      TokenClass.leadBy_of_covers (covers_of_takes hrule' hspace htakes')
    rw [String.toList_ofList] at hlead'
    obtain rfl : k = k' := Option.some.inj (hlead.symm.trans hlead')
    obtain rfl | ⟨rfl, texts, rfl⟩ := eq_or_literal_of_same_class hrule hrule'
    · exact hfront _ hmem _ htakes
    · obtain ⟨front', back', htexts, -⟩ := htakes'
      have hin : d :: p ∈ texts :=
        htexts ▸ List.mem_append_right front' List.mem_cons_self
      have hshort := isPrefix_of_openWithBlank hrest
        (not_blank_of_mem_symbols hrule' _ hin) hprefix
      obtain ⟨q, hq⟩ :=
        exists_takes_literal hin (hshort.trans (List.prefix_append _ behind))
      exact hfront _ hmem q hq

end Behind

/-! ## Lines written back

Between two tokens there has to be a gap, and any blanks will do for one. What
is written back is read from the front: blanks are passed, the first token is
taken off, and the same is done with the rest. -/

/-- **Tokens written one after the other**, with a gap between any two
neighbours. -/
inductive Spaced : List Token → List Char → Prop
  | none : Spaced [] []
  | one (t : Token) : Spaced [t] t.toList
  | more {t u : Token} {ts : List Token} {gap cs : List Char} (hne : gap ≠ [])
      (hgap : IsGap gap) (h : Spaced (u :: ts) cs) :
      Spaced (t :: u :: ts) (t.toList ++ (gap ++ cs))

/-- No token begins with a blank, or as a comment does. So what is written is
not taken for a comment, wherever its first token stands. -/
theorem IsCutOff.exists_cons {t : Token} (h : IsCutOff t) :
    ∃ c cs, t.toList = c :: cs ∧ Text.isBlank c = false ∧ c ≠ '#' := by
  obtain ⟨k, behind, hk, htakes⟩ := h
  obtain ⟨c, cs, hcs⟩ :=
    List.exists_cons_of_ne_nil (ne_nil_of_firstTakes htakes)
  have hcovers := covers_of_firstTakes hk htakes
  rw [String.ofList_toList] at hcovers
  exact ⟨c, cs, hcs, head?_of_covers hcovers (hcs ▸ rfl)⟩

/-- What is written begins with the first token. -/
theorem Spaced.cases_head {ts : List Token} {body : List Char}
    (h : Spaced ts body) (hts : ∀ t ∈ ts, IsCutOff t) :
    ts = [] ∧ body = [] ∨
      ts ≠ [] ∧ ∃ c cs, body = c :: cs ∧ Text.isBlank c = false ∧ c ≠ '#' := by
  cases h with
  | none => exact .inl ⟨rfl, rfl⟩
  | one t =>
    exact .inr ⟨List.cons_ne_nil _ _, (hts t List.mem_cons_self).exists_cons⟩
  | @more t _ _ gap cs =>
    obtain ⟨c, cs', hcs, hvisible⟩ := (hts t List.mem_cons_self).exists_cons
    refine .inr ⟨List.cons_ne_nil _ _, c, cs' ++ (gap ++ cs), ?_, hvisible⟩
    rw [hcs, List.cons_append]

section Gaps

variable {gap rest : List Char} (line : Nat) (done : List Token)

/-- A gap opens with a blank, if it is not empty. -/
theorem opensWithBlank_of_isGap (hgap : IsGap gap) :
    OpensWithBlank gap := fun c hc =>
  hgap c (List.mem_of_mem_head? hc)

/-- So does whatever stands behind a gap that is not empty, together with the
gap. -/
theorem opensWithBlank_append (hne : gap ≠ []) (hgap : IsGap gap) :
    OpensWithBlank (gap ++ rest) := by
  intro c hc
  rw [List.head?_append_of_ne_nil gap hne] at hc
  exact opensWithBlank_of_isGap hgap c hc

/-- The lexer takes all blanks at once. If there are some, the rule for blanks
is the first and takes them all; if there are none nothing is to be shown. -/
theorem tokensFrom_trimStart (cs : List Char) :
    tokensFrom line done (Text.trimStart cs) = tokensFrom line done cs := by
  have hwhole := Text.indent_append_trimStart cs
  by_cases hindent : Text.indent cs = []
  · rw [hindent, List.nil_append] at hwhole
    rw [hwhole]
  · have htakes :
        FirstTakes tokenRules (Text.indent cs ++ Text.trimStart cs) .space
        (Text.indent cs) := by
      refine ⟨[], .longest Text.isBlank fun _ => true, _, rfl,
        ⟨hindent, ?_, rfl, ?_⟩, nofun⟩
      · rw [hwhole]
        exact List.prefix_rfl
      · rw [hwhole]
        exact fun p hp _ => hp.length_le
    have hone := tokensFrom_of_firstTakes htakes line done
    rw [hwhole] at hone
    exact hone.symm

/-- The lexer passes a gap. -/
theorem tokensFrom_gap (hgap : IsGap gap) :
    tokensFrom line done (gap ++ rest) = tokensFrom line done rest := by
  rw [← tokensFrom_trimStart, ← tokensFrom_trimStart line done rest,
    Text.trimStart, Text.trimStart, List.dropWhile_append_of_pos hgap]

/-- **The lexer takes a token off** in front of a gap or the end. What has been
found so far is kept in front, turned around. -/
theorem tokensFrom_token {t : Token} (h : IsCutOff t)
    (hrest : OpensWithBlank rest) :
    tokensFrom line done (t.toList ++ rest)
    = tokensFrom line (t :: done) rest := by
  obtain ⟨k, behind, hk, htakes⟩ := h
  rw [tokensFrom_of_firstTakes (firstTakes_before_blank hk hrest htakes)]
  cases k with
  | space => exact absurd rfl hk
  | text | symbol | number | word =>
    show tokensFrom line (String.ofList t.toList :: done) rest = _
    rw [String.ofList_toList]

/-- **The lexer finds the tokens that were written.** By induction on how the
tokens are written, so that each step takes one token and the gap behind it. -/
theorem tokensFrom_spaced {ts : List Token} {body after : List Char}
    (h : Spaced ts body) (hts : ∀ t ∈ ts, IsCutOff t) (hafter : IsGap after) :
    tokensFrom line done (body ++ after) = .ok (done.reverse ++ ts) := by
  have hend : ∀ done, tokensFrom line done after = .ok done.reverse := by
    intro done
    have hgap : tokensFrom line done (after ++ []) = tokensFrom line done [] :=
      tokensFrom_gap line done hafter
    rw [List.append_nil] at hgap
    rw [hgap, tokensFrom]
    rfl
  induction h generalizing done with
  | none => rw [List.nil_append, hend, List.append_nil]
  | one t =>
    rw [tokensFrom_token line done (hts t List.mem_cons_self)
      (opensWithBlank_of_isGap hafter), hend, List.reverse_cons]
  | @more t u ts gap cs hne hgap _ ih =>
    rw [List.append_assoc, List.append_assoc,
      tokensFrom_token line done (hts t List.mem_cons_self)
      (opensWithBlank_append hne hgap),
      tokensFrom_gap line _ hgap,
      ih _ fun t ht => hts t (List.mem_cons_of_mem _ ht),
      List.reverse_cons, List.append_assoc]
    rfl

end Gaps

/-- **Tokens survive new gaps.** Written back with gaps between them, and with
blanks before and behind, the tokens of a line are the tokens of the line that
results. The indentation of the new line is the length of what stands before
the first token; without a token all blanks are indentation. -/
theorem respaced_tokens {text : String} {line : Nat} {l : LexLine}
    (h : lexLine text line = .ok l) {before body after : List Char}
    (hbefore : IsGap before) (hbody : Spaced l.tokens body)
    (hafter : IsGap after) (line' : Nat) :
    lexLine (String.ofList (before ++ body ++ after)) line' =
      .ok ⟨if l.tokens = [] then before.length + after.length
        else before.length, l.tokens,
        String.ofList (before ++ body ++ after)⟩ := by
  have hchars : (String.ofList (before ++ body ++ after)).toList
      = before ++ (body ++ after) := by
    rw [String.toList_ofList, List.append_assoc]
  have htrim : Text.trimStart (before ++ (body ++ after))
      = Text.trimStart (body ++ after) :=
    List.dropWhile_append_of_pos hbefore
  have hindent : Text.indent (before ++ (body ++ after))
      = before ++ Text.indent (body ++ after) :=
    List.takeWhile_append_of_pos hbefore
  have hlex : tokensFrom line' [] (Text.trimStart (body ++ after))
      = .ok l.tokens := by
    rw [tokensFrom_trimStart]
    exact tokensFrom_spaced line' [] hbody
      (fun t ht => isCutOff_of_lexLine h ht) hafter
  -- Behind the first blanks there is the first token, or nothing at all.
  have hbehind : (Text.trimStart (body ++ after)).head? ≠ some '#' ∧
      (Text.indent (body ++ after)).length = if l.tokens = [] then after.length
      else 0 := by
    obtain ⟨htokens, rfl⟩ | ⟨htokens, c, cs, rfl, hblank, hcomment⟩ :=
      hbody.cases_head fun t ht => isCutOff_of_lexLine h ht
    · have hnone : Text.trimStart ([] ++ after) = [] :=
        List.dropWhile_eq_nil_iff.2 hafter
      have hall : Text.indent ([] ++ after) = after :=
        List.takeWhile_eq_self_iff.2 hafter
      rw [hnone, hall, if_pos htokens]
      exact ⟨nofun, rfl⟩
    · have hnone : Text.indent (c :: cs ++ after) = [] :=
        List.takeWhile_cons_of_neg (by simp [hblank])
      have hall : Text.trimStart (c :: cs ++ after) = c :: cs ++ after :=
        List.dropWhile_cons_of_neg (by simp [hblank])
      rw [hnone, hall, if_neg htokens]
      exact ⟨fun heq => hcomment (Option.some.inj heq), rfl⟩
  rw [← htrim, ← hchars] at hlex hbehind
  rw [lexLine_of_tokensFrom hbehind.1 hlex, hchars, hindent, List.length_append,
    hbehind.2]
  split <;> rfl

/-- A number in front of a word, and a symbol in front of another, with gaps of
other blanks. -/
theorem respaced_tokens_run_together :
    lexLine "9abc<<=" 1 = .ok ⟨0, ["9", "abc", "<<", "="], "9abc<<="⟩ ∧
      lexLine "\t9 abc\u3000<< \t= " 2 =
        .ok ⟨1, ["9", "abc", "<<", "="], "\t9 abc\u3000<< \t= "⟩ := by
  have hline :
      lexLine "9abc<<=" 1 = .ok ⟨0, ["9", "abc", "<<", "="], "9abc<<="⟩ := by
    decide +kernel
  have hbody :
      Spaced ["9", "abc", "<<", "="]
      ("9".toList
        ++ ([' ']
          ++ ("abc".toList
            ++ (['\u3000'] ++ ("<<".toList ++ ([' ', '\t'] ++ "=".toList)))))) :=
    .more (by decide) (by decide)
      (.more (by decide) (by decide) (.more (by decide) (by decide) (.one "=")))
  have hbefore : IsGap ['\t'] := by decide
  have hafter : IsGap [' '] := by decide
  exact ⟨hline, respaced_tokens hline hbefore hbody hafter 2⟩

end StreamScript
