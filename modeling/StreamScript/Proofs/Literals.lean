import StreamScript.Proofs.Indentation
import StreamScript.Proofs.LineForms
import StreamScript.Proofs.Pieces

/-!
# Texts written as quoted strings

The lexer lets a quoted string grow until a quote closes it, and the grammar
decodes what stands between the quotes by a walk of its own. What the two have
in common is how the inside of a quoted string is made up (`Inside`). Since
what closes exactly at its end is an inside and a quote (`closesAtEnd_iff`), a
quoted string is complete nowhere before its end, and the decoding never comes
upon a backslash that has nothing behind it (`WholeLiteral`).

`quote` writes a text so that its inside decodes to it again. Since a quoted
string is complete at one place only, it does not matter what follows it on its
line, and any text can be written in a script (`quoted_texts`).
-/

namespace StreamScript

open Pattern (Scan FirstTakes firstPrefix)

/-! ## Decoding an inside

The decoding goes along the inside and replaces each pair with a backslash by
what it means. A backslash at the very end would mean nothing. It cannot come
up: the inside is made of single characters that are no backslashes, and of
whole pairs. -/

/-- Whether the decoding of an escaped text (`unescape`) comes upon a backslash
with no character behind it. -/
def meetsLoneBackslash : List Char → Bool
  | '\\' :: _ :: rest => meetsLoneBackslash rest
  | ['\\'] => true
  | _ :: rest => meetsLoneBackslash rest
  | [] => false

/-- Decoding an inside never comes upon a backslash that has nothing behind
it. -/
theorem Inside.meetsLoneBackslash_eq_false {inside : List Char}
    (h : Inside inside) :
    meetsLoneBackslash inside = false := by
  induction h with
  | nil => rfl
  | plain _ hslash _ ih => rw [meetsLoneBackslash, ih] <;> simp [hslash]
  | escape c _ ih => rw [meetsLoneBackslash, ih]

/-- An inside between quotes is decoded. -/
theorem unquote?_enclosed (inside : List Char) :
    unquote? (String.ofList ('"' :: (inside ++ ['"']))) =
      some (String.ofList (unescape inside)) := by
  unfold unquote?
  rw [String.toList_ofList]
  show (if (inside ++ ['"']).getLast? = some '"' then _ else _) = _
  rw [if_pos List.getLast?_concat, List.dropLast_concat]

/-! ## Where a quoted string is complete

A quoted string is complete where it is closed. At every earlier place its
inside has been cut, within a pair or between two of its parts, and what is
there is not closed. So the lexer, which stops at the first place where the
string is complete, stops at its end. -/

/-- A quoted string is complete nowhere before its end. -/
theorem Inside.closesAtEnd_eq_false {inside p q : List Char} (h : Inside inside)
    (hpq : inside ++ ['"'] = p ++ q) (hq : q ≠ []) : closesAtEnd p = false := by
  rw [Bool.eq_false_iff]
  intro hp
  obtain ⟨shorter, rfl, hshorter⟩ := closesAtEnd_iff.1 hp
  -- Closed at its end, the whole would have nothing behind the quote of the
  -- shorter one.
  have hwhole : closesAtEnd (inside ++ ['"']) = true :=
    closesAtEnd_iff.2 ⟨inside, rfl, h⟩
  rw [hpq, List.append_assoc, hshorter.closesAtEnd_append] at hwhole
  exact hq (List.isEmpty_iff.1 hwhole)

/-- A quoted string grows until its end. -/
theorem Inside.takes {inside : List Char} (h : Inside inside)
    (rest : List Char) :
    (Scan.sequence judgeQuoted).Takes ('"' :: (inside ++ ['"']) ++ rest)
      ('"' :: (inside ++ ['"'])) := by
  refine ⟨List.cons_ne_nil _ _, rest, rfl,
    judgeQuoted_eq_accept_iff.2 ⟨inside, rfl, h⟩, fun p q hpq hp hq => ?_⟩
  obtain ⟨rfl, -⟩ | ⟨p, rfl, hpq⟩ := List.cons_eq_append_iff.1 hpq
  · exact absurd rfl hp
  · obtain ⟨c, q, rfl⟩ := List.exists_cons_of_ne_nil hq
    show (if closesAtEnd p = true then _ else _) = _
    rw [h.closesAtEnd_eq_false (List.cons.inj hpq).2 hq]
    rfl

/-- **A quoted string is taken whole**, whatever follows it. -/
theorem Inside.firstTakes {inside : List Char} (h : Inside inside)
    (rest : List Char) :
    FirstTakes tokenRules ('"' :: (inside ++ ['"']) ++ rest) .text
    ('"' :: (inside ++ ['"'])) := by
  refine ⟨[(.longest Text.isBlank fun _ => true, .space)],
    .sequence judgeQuoted, _, rfl, h.takes rest, fun rule hrule p htakes => ?_⟩
  obtain rfl := List.mem_singleton.1 hrule
  obtain ⟨hne, hrun, -⟩ := htakes
  exact hne (List.prefix_nil.1 hrun)

/-- **A quoted string that is whole.** -/
structure WholeLiteral (t : Token) : Prop where
  /-- It stands for a text, and every backslash in it has a character behind
  it. -/
  decodes : ∃ inside, t.toList = '"' :: (inside ++ ['"']) ∧
    meetsLoneBackslash inside = false ∧
    unquote? t = some (String.ofList (unescape inside))
  /-- No other text that it begins with is a complete quoted string. -/
  complete_once : ∀ p, p <+: t.toList → p ≠ t.toList → ∀ next,
    judgeQuoted p next ≠ .accept

/-- An inside between quotes is whole. -/
theorem Inside.wholeLiteral {inside : List Char} (h : Inside inside) :
    WholeLiteral (String.ofList ('"' :: (inside ++ ['"']))) where
  decodes :=
    ⟨inside, String.toList_ofList, h.meetsLoneBackslash_eq_false,
      unquote?_enclosed inside⟩
  complete_once := by
    intro p hp hne next haccept
    rw [String.toList_ofList] at hp hne
    obtain ⟨shorter, rfl, hshorter⟩ := judgeQuoted_eq_accept_iff.1 haccept
    obtain ⟨q, hq⟩ := hp
    have hrest : q ≠ [] := by
      rintro rfl
      exact hne (by rw [← hq, List.append_nil])
    have hcloses := h.closesAtEnd_eq_false (List.cons.inj hq).2.symm hrest
    rw [closesAtEnd_iff.2 ⟨shorter, rfl, hshorter⟩] at hcloses
    cases hcloses

/-- **Quoted strings are whole where the lexer takes them.** -/
theorem wholeLiteral_of_firstPrefix {cs taken : List Char}
    (h : firstPrefix tokenRules cs = some (.text, taken)) :
    WholeLiteral (String.ofList taken) := by
  obtain ⟨front, scan, back, hrules, htakes, -⟩ :=
    Pattern.firstPrefix_eq_some_iff.1 h
  obtain ⟨inside, rfl, hinside⟩ :=
    exists_inside_of_takes
      (hrules ▸ List.mem_append_right front List.mem_cons_self) htakes
  exact hinside.wholeLiteral

/-- **The quoted strings of a line are whole.** -/
theorem wholeLiteral_of_lexLine {text : String} {line : Nat} {l : LexLine}
    {t : Token} (h : lexLine text line = .ok l) (ht : t ∈ l.tokens)
    (hstring : isStringToken t = true) :
    WholeLiteral t := by
  obtain ⟨k, behind, hk, htakes⟩ := isCutOff_of_lexLine h ht
  have hcovers := covers_of_firstTakes hk htakes
  rw [String.ofList_toList] at hcovers
  obtain rfl : k = .text := TokenClass.eq_of_covers hcovers hstring
  rw [← t.ofList_toList]
  exact wholeLiteral_of_firstPrefix (Pattern.firstPrefix_eq_some_iff.2 htakes)

/-! ## Writing a text

Quotes and backslashes are written with a backslash in front of them, and line
feeds, tabs and carriage returns by their letters. Each character is written as
a single character that is safe or as a pair, so what is written is an inside,
and it is decoded part by part. -/

/-- A character as it is written inside a quoted string. -/
def escapeInside (c : Char) : List Char :=
  if c = '\\' ∨ c = '"' then ['\\', c]
  else if c = '\n' then ['\\', 'n']
  else if c = '\t' then ['\\', 't']
  else if c = '\r' then ['\\', 'r']
  else [c]

/-- **A text as a quoted string.** -/
def quote (s : String) : Token :=
  String.ofList ('"' :: (s.toList.flatMap escapeInside ++ ['"']))

/-- A character is written as itself if that is safe, and else as an escape
that means it. -/
theorem escapeInside_cases (c : Char) :
    (escapeInside c = [c] ∧ c ≠ '"' ∧ c ≠ '\\' ∧ c ≠ '\n') ∨
      ∃ d, escapeInside c = ['\\', d] ∧ d ≠ '\n' ∧
        ∀ rest, unescape ('\\' :: d :: rest) = c :: unescape rest := by
  unfold escapeInside
  split
  · next h =>
    refine .inr ⟨c, rfl, ?_, fun rest => ?_⟩
    · obtain rfl | rfl := h <;> decide
    · obtain rfl | rfl := h <;> rfl
  · next h =>
    rw [not_or] at h
    split
    · next hc => exact .inr ⟨'n', rfl, by decide, fun rest => hc ▸ rfl⟩
    · next hn =>
      split
      · next hc => exact .inr ⟨'t', rfl, by decide, fun rest => hc ▸ rfl⟩
      · split
        · next hc => exact .inr ⟨'r', rfl, by decide, fun rest => hc ▸ rfl⟩
        · exact .inl ⟨rfl, h.2, h.1, hn⟩

/-- What is written is the inside of a quoted string. -/
theorem inside_escaped (cs : List Char) : Inside (cs.flatMap escapeInside) := by
  induction cs with
  | nil => exact .nil
  | cons c cs ih =>
    rw [List.flatMap_cons]
    obtain ⟨hwritten, hquote, hslash, -⟩ | ⟨d, hwritten, -⟩ :=
      escapeInside_cases c
    · rw [hwritten]
      exact .plain hquote hslash ih
    · rw [hwritten]
      exact .escape d ih

/-- **What is written decodes to the text itself.** -/
theorem unescape_escaped (cs : List Char) :
    unescape (cs.flatMap escapeInside) = cs := by
  induction cs with
  | nil => rfl
  | cons c cs ih =>
    rw [List.flatMap_cons]
    obtain ⟨hwritten, -, hslash, -⟩ | ⟨d, hwritten, -, hmeans⟩ :=
      escapeInside_cases c
    · rw [hwritten, List.singleton_append, unescape, ih]
      exact fun d rest heq => absurd heq hslash
    · rw [hwritten]
      exact (hmeans _).trans (congrArg (c :: ·) ih)

/-- A quoted text stays on one line. -/
theorem newline_not_mem_escaped (cs : List Char) :
    '\n' ∉ cs.flatMap escapeInside := by
  intro h
  obtain ⟨c, -, hc⟩ := List.mem_flatMap.1 h
  obtain ⟨hwritten, -, -, hn⟩ | ⟨d, hwritten, hn, -⟩ := escapeInside_cases c
  · rw [hwritten, List.mem_singleton] at hc
    exact hn hc.symm
  · rw [hwritten, List.mem_pair] at hc
    obtain hc | hc := hc
    · cases hc
    · exact hn hc.symm

theorem unquote?_quote (s : String) : unquote? (quote s) = some s := by
  rw [quote, unquote?_enclosed, unescape_escaped, String.ofList_toList]

/-! ## A script that is a quoted text

A line feed in the text would end the line of a script; it is written as a
pair, so the script is a single line. The line has one token, and the token is
an expression. -/

/-- A text without line feeds is one line. -/
theorem linesFrom_of_newline_not_mem {cs : List Char} (h : '\n' ∉ cs)
    (begun : List Char) :
    Text.linesFrom begun cs =
      if begun.isEmpty && cs.isEmpty then [] else [begun.reverse ++ cs] := by
  induction cs generalizing begun with
  | nil => simp [Text.linesFrom]
  | cons c cs ih =>
    rw [List.mem_cons, not_or] at h
    rw [Text.linesFrom, ih h.2]
    · simp
    · exact fun heq => h.1 heq.symm

/-- The lexer makes one token of a quoted text. -/
theorem lexLine_quote (s : String) (line : Nat) :
    lexLine (quote s) line = .ok ⟨0, [quote s], quote s⟩ := by
  have hchars :
      (quote s).toList = '"' :: (s.toList.flatMap escapeInside ++ ['"']) :=
    String.toList_ofList
  have htrim : Text.trimStart (quote s).toList = (quote s).toList := by
    rw [hchars]
    rfl
  have hindent : Text.indent (quote s).toList = [] := by
    rw [hchars]
    rfl
  have hlex : tokensFrom line [] (quote s).toList = .ok [quote s] := by
    have hone :=
      tokensFrom_of_firstTakes ((inside_escaped s.toList).firstTakes []) line []
    rw [List.append_nil] at hone
    rw [hchars, hone, tokensFrom]
    rfl
  have hline :=
    lexLine_of_tokensFrom (htrim.symm ▸ hchars ▸ by simp) (htrim.symm ▸ hlex)
  rwa [hindent] at hline

/-- A quoted text is the expression for that text. -/
theorem parseExpr_quote (s : String) : parseExpr [quote s] = .ok (.text s) := by
  have hread : readOperand [quote s] = .ok (.text s, []) :=
    readOperand_text (isStringToken_enclosed _) (unquote?_quote s)
  exact parseExpr_eq_ok_iff.2 ⟨List.cons_ne_nil _ _, _,
    parseAlternation_of_nil hread, rfl⟩

/-- The statement that gives a text, on the first line of a script. -/
def textStatement (s : String) : Placed Item where
  content := .step (.act (.eval (.text s)))
  tabDepth := 0
  depth := 0
  line := 1

/-- **A script that is a quoted text** is the one statement that gives the
text. -/
theorem ofScript_quote (s : String) :
    Program.ofScript (quote s) = .ok ⟨[textStatement s]⟩ := by
  have hlines : Text.lines (quote s).toList = [(quote s).toList] := by
    have hnewline : '\n' ∉ (quote s).toList := by
      rw [quote, String.toList_ofList]
      simpa using newline_not_mem_escaped s.toList
    have hne : (quote s).toList ≠ [] := by
      rw [quote, String.toList_ofList]
      exact List.cons_ne_nil _ _
    rw [Text.lines, linesFrom_of_newline_not_mem hnewline]
    simp [hne]
  have hlex : lexScript (quote s) = .ok [(1, ⟨0, [quote s], quote s⟩)] := by
    rw [lexScript, hlines]
    show ([((quote s).toList, 1)] : List (List Char × Nat)).mapM _ = _
    simp only [List.mapM_cons, List.mapM_nil, String.ofList_toList,
      lexLine_quote]
    rfl
  have hstatement :
      parseStatement [quote s] = .ok (.action (.eval (.text s))) :=
    LineForm.Written.parseStatement (.expr (parseExpr_quote s))
  refine Program.ofScript_eq_ok_iff.2 ⟨_, hlex, congrArg Program.mk ?_⟩
  have hplace : (Layout.place {} 1 ⟨0, [quote s], quote s⟩).content =
      .ok (.action (.eval (.text s))) := hstatement
  rw [readItems_cons_action (l := (1, ⟨0, [quote s], quote s⟩)) rfl hplace,
    readItems]
  rfl

/-! ## Any text can be written

All parts are put together: the text in front of anything, by itself, and as a
script; and what else may be taken for a quoted string. -/

/-- **Any text can be written as a quoted string.** In front of whatever
follows it is taken whole and as a quoted string, it decodes to the text, and
as a script it is the one statement that gives the text. And nothing is taken
for a quoted string that is not whole, neither where a token begins nor among
the tokens of a line. -/
theorem quoted_texts :
    (∀ s : String, ∀ rest : List Char,
      firstPrefix tokenRules ((quote s).toList ++ rest)
      = some (.text, (quote s).toList)) ∧
    (∀ s, unquote? (quote s) = some s) ∧
    (∀ s, Program.ofScript (quote s) = .ok ⟨[textStatement s]⟩) ∧
    (∀ cs taken, firstPrefix tokenRules cs = some (.text, taken) →
      WholeLiteral (String.ofList taken)) ∧
    ∀ text line l t, lexLine text line = .ok l → t ∈ l.tokens →
      isStringToken t = true →
      WholeLiteral t := by
  refine ⟨fun s rest => ?_, unquote?_quote, ofScript_quote,
    fun _ _ => wholeLiteral_of_firstPrefix,
    fun _ _ _ _ => wholeLiteral_of_lexLine⟩
  rw [quote, String.toList_ofList]
  exact Pattern.firstPrefix_eq_some_iff.2
    ((inside_escaped s.toList).firstTakes rest)

/-- A string that ends with an escaped backslash, in front of text with quotes
of its own, and one that is nothing but an escaped quote. -/
theorem quoted_texts_backslash :
    firstPrefix tokenRules "\"a\\\\\" b \"c\"".toList
      = some (.text, "\"a\\\\\"".toList) ∧
      WholeLiteral "\"a\\\\\"" ∧
      lexLine "b \"\\\"\"" 1 = .ok ⟨0, ["b", "\"\\\"\""], "b \"\\\"\""⟩ ∧
      isStringToken "\"\\\"\"" = true ∧ WholeLiteral "\"\\\"\"" := by
  have htaken : firstPrefix tokenRules "\"a\\\\\" b \"c\"".toList =
      some (.text, "\"a\\\\\"".toList) := by decide
  have hline : lexLine "b \"\\\"\"" 1 =
      .ok ⟨0, ["b", "\"\\\"\""], "b \"\\\"\""⟩ := by decide +kernel
  exact ⟨htaken, quoted_texts.2.2.2.1 _ _ htaken, hline, by decide,
    quoted_texts.2.2.2.2 _ _ _ _ hline
    (List.mem_cons_of_mem _ List.mem_cons_self) (by decide)⟩

end StreamScript
