import StreamScript.Proofs.Brackets

/-!
# Words of brackets

Three functions look for brackets, and each in its own way. `nesting` keeps
those that are open on a stack, `splitTopLevel` keeps only their number and
does not look at their kind, and a growing run asks for the nesting of every
run anew. They are about the same thing nevertheless, and this module says
about what: the words in which every bracket has its partner (`WellMatched`).

Tokens can be scanned to their end if their brackets are the beginning of such
a word, and what is left on the stack are the brackets without a partner
(`nesting_eq_some_iff`). Tokens whose brackets all have partners are split into
parts of the same sort, none of which holds a separator outside brackets
(`balanced_of_mem_splitTopLevel`). So a run that grows up to the separator ends
where the first part ends, and one that grows up to a closing bracket ends in
front of the partner of the opening one.
-/

namespace StreamScript.Pattern

variable {ts w : List Token} {t opener closer sep : Token} {kind : Bracket}
  {stack left : List Bracket}

/-! ## Words

A word is well matched if it is empty, or begins with an opener, whose partner
stands behind a well-matched word and has a well-matched word behind it. This
does not mention a stack, nor a depth. The connection is made by words that
close what a stack holds: between the closers there are well-matched words, and
the closers come in the order of the stack.

Other tokens are left out of a word, since they neither open nor close. -/

/-- Whether a token is a bracket. -/
def isBracket (t : Token) : Bool :=
  (Bracket.opened? t).isSome || (Bracket.closed? t).isSome

/-- **The brackets of some tokens**, in their order. -/
def bracketsOf (ts : List Token) : List Token :=
  ts.filter isBracket

/-- **Words in which every bracket has its partner.** -/
inductive WellMatched : List Token → Prop where
  | nil : WellMatched []
  | enclosed {opener closer : Token} {kind : Bracket}
      {inner rest : List Token} :
      Bracket.opened? opener = some kind → Bracket.closed? closer = some kind →
      WellMatched inner → WellMatched rest →
      WellMatched (opener :: (inner ++ closer :: rest))

/-- How many of some tokens open a bracket. -/
def openers (ts : List Token) : Nat :=
  ts.countP fun t => (Bracket.opened? t).isSome

/-- How many of some tokens close a bracket. -/
def closers (ts : List Token) : Nat :=
  ts.countP fun t => (Bracket.closed? t).isSome

/-- A word that closes what a stack holds, innermost first, with well-matched
words in between. -/
inductive Unwinds : List Bracket → List Token → Prop where
  | done {w : List Token} : WellMatched w → Unwinds [] w
  | close {closer : Token} {kind : Bracket} {stack : List Bracket}
      {w rest : List Token} :
      WellMatched w → Bracket.closed? closer = some kind → Unwinds stack rest →
      Unwinds (kind :: stack) (w ++ closer :: rest)

theorem isBracket_eq_false_iff :
    isBracket t = false ↔ Bracket.opened? t = none ∧
      Bracket.closed? t = none := by
  unfold isBracket
  rw [Bool.or_eq_false_iff, Option.isSome_eq_false_iff,
    Option.isSome_eq_false_iff, Option.isNone_iff_eq_none,
    Option.isNone_iff_eq_none]

/-- An opener is a bracket, -/
theorem isBracket_of_opened? (h : Bracket.opened? t = some kind) :
    isBracket t = true := by
  rw [isBracket, h]
  rfl

/-- and so is a closer. -/
theorem isBracket_of_closed? (h : Bracket.closed? t = some kind) :
    isBracket t = true := by
  rw [isBracket, h]
  exact Bool.or_true _

/-- A token opens a bracket, closes one, or is none. -/
theorem bracket_cases (t : Token) :
    (∃ kind, Bracket.opened? t = some kind) ∨
      (∃ kind, Bracket.closed? t = some kind) ∨
      isBracket t = false := by
  cases ho : Bracket.opened? t with
  | some kind => exact .inl ⟨kind, rfl⟩
  | none =>
    cases hc : Bracket.closed? t with
    | some kind => exact .inr (.inl ⟨kind, rfl⟩)
    | none => exact .inr (.inr (isBracket_eq_false_iff.2 ⟨ho, hc⟩))

/-- An opener goes on the stack. -/
theorem openAfter_opener (h : Bracket.opened? t = some kind)
    (stack : List Bracket) (ts : List Token) :
    openAfter stack (t :: ts) = openAfter (kind :: stack) ts := by
  rw [openAfter, h]

/-- If a closer can be read, its partner is on top of the stack. -/
theorem openAfter_closer_eq_some (h : Bracket.closed? t = some kind) :
    openAfter stack (t :: ts) = some left ↔
      ∃ outer, stack = kind :: outer ∧ openAfter outer ts = some left := by
  rw [openAfter_closer h]
  cases stack with
  | nil => exact iff_of_false nofun (by rintro ⟨outer, h, -⟩; cases h)
  | cons top outer =>
    dsimp only
    split
    · next htop =>
      subst htop
      exact ⟨fun h => ⟨outer, rfl, h⟩, by rintro ⟨_, ⟨⟩, h⟩; exact h⟩
    · next htop =>
        exact iff_of_false nofun (by rintro ⟨_, ⟨⟩, -⟩; exact htop rfl)

/-- A token that is no bracket is passed. -/
theorem openAfter_plain (h : isBracket t = false) (stack : List Bracket)
    (ts : List Token) :
    openAfter stack (t :: ts) = openAfter stack ts := by
  obtain ⟨ho, hc⟩ := isBracket_eq_false_iff.1 h
  rw [openAfter, ho, hc]

/-- Only the brackets count. -/
theorem openAfter_bracketsOf (stack : List Bracket) (ts : List Token) :
    openAfter stack (bracketsOf ts) = openAfter stack ts := by
  induction ts generalizing stack with
  | nil => rfl
  | cons t ts ih =>
    obtain ⟨kind, ho⟩ | ⟨kind, hc⟩ | hplain := bracket_cases t
    · rw [bracketsOf, List.filter_cons_of_pos (isBracket_of_opened? ho),
        openAfter_opener ho, openAfter_opener ho]
      exact ih (kind :: stack)
    · rw [bracketsOf, List.filter_cons_of_pos (isBracket_of_closed? hc),
        openAfter_closer hc, openAfter_closer hc]
      cases stack with
      | nil => rfl
      | cons top outer =>
        exact congrArg (fun r => if top = kind then r else none) (ih outer)
    · rw [bracketsOf, List.filter_cons_of_neg (Bool.eq_false_iff.1 hplain),
        openAfter_plain hplain]
      exact ih stack

/-- The stack grows with every opener and shrinks with every closer. -/
theorem length_add_openers (h : openAfter stack ts = some left) :
    stack.length + openers ts = left.length + closers ts := by
  induction ts generalizing stack with
  | nil =>
    obtain rfl := Option.some.inj h
    rfl
  | cons t ts ih =>
    unfold openers closers at ih ⊢
    rw [List.countP_cons, List.countP_cons]
    obtain ⟨kind, ho⟩ | ⟨kind, hc⟩ | hplain := bracket_cases t
    · rw [openAfter_opener ho] at h
      have := ih h
      rw [ho, Bracket.closed?_of_opened? ho]
      simp only [List.length_cons, Option.isSome_some, Option.isSome_none,
        if_true, Bool.false_eq_true, if_false] at this ⊢
      omega
    · obtain ⟨outer, rfl, hrest⟩ := (openAfter_closer_eq_some hc).1 h
      have := ih hrest
      rw [hc, opened?_of_closed? hc]
      simp only [List.length_cons, Option.isSome_some, Option.isSome_none,
        if_true, Bool.false_eq_true, if_false]
      omega
    · rw [openAfter_plain hplain] at h
      obtain ⟨ho, hc⟩ := isBracket_eq_false_iff.1 hplain
      rw [ho, hc]
      exact ih h

/-- Well-matched words leave the stack as it is. -/
theorem WellMatched.balanced (h : WellMatched w) : Balanced w := by
  induction h with
  | nil => exact fun _ => rfl
  | @enclosed opener closer kind inner rest ho hc _ _ hinner hrest =>
    have hword : opener :: (inner ++ closer :: rest)
        = opener :: (inner ++ [closer]) ++ rest := by
      simp
    rw [hword]
    exact (hinner.enclosed ho hc).append hrest

/-- An opener in front of a word that closes it. -/
theorem Unwinds.cons_opener (h : Unwinds (kind :: stack) w)
    (ho : Bracket.opened? opener = some kind) :
    Unwinds stack (opener :: w) := by
  cases h with
  | close hinner hc hrest =>
    cases hrest with
    | done hrest => exact .done (.enclosed ho hc hinner hrest)
    | @close outer kind' stack w' rest hw hc' hrest =>
      -- The word up to the next closer now begins with the brackets that have
      -- been closed.
      have hclosed := WellMatched.enclosed ho hc hinner hw
      simpa using Unwinds.close hclosed hc' hrest

/-- **A word that empties a stack closes what it holds.** -/
theorem unwinds_of_openAfter (hw : ∀ t ∈ w, isBracket t = true)
    (h : openAfter stack w = some []) : Unwinds stack w := by
  induction w generalizing stack with
  | nil =>
    obtain rfl := Option.some.inj h
    exact .done .nil
  | cons t w ih =>
    obtain ⟨ht, hw⟩ := List.forall_mem_cons.1 hw
    obtain ⟨kind, ho⟩ | ⟨kind, hc⟩ | hplain := bracket_cases t
    · rw [openAfter_opener ho] at h
      exact (ih hw h).cons_opener ho
    · obtain ⟨outer, rfl, hrest⟩ := (openAfter_closer_eq_some hc).1 h
      exact .close .nil hc (ih hw hrest)
    · rw [hplain] at ht
      cases ht

theorem wellMatched_of_openAfter (hw : ∀ t ∈ w, isBracket t = true)
    (h : openAfter [] w = some []) : WellMatched w := by
  cases unwinds_of_openAfter hw h with
  | done hmatched => exact hmatched

/-- The brackets of some tokens are brackets. -/
theorem forall_mem_bracketsOf (ts : List Token) :
    ∀ t ∈ bracketsOf ts, isBracket t = true :=
  fun _ ht => (List.mem_filter.1 ht).2

/-- **Tokens are balanced if all their brackets have partners.** -/
theorem balanced_iff_wellMatched :
    Balanced ts ↔ WellMatched (bracketsOf ts) := by
  constructor
  · intro h
    refine wellMatched_of_openAfter (forall_mem_bracketsOf ts) ?_
    rw [openAfter_bracketsOf]
    exact h []
  · intro h stack
    rw [← openAfter_bracketsOf]
    exact h.balanced stack

/-- The nesting is the height of the stack. -/
theorem nesting_eq_some_iff_openAfter {depth : Nat} :
    nesting ts = some depth ↔ ∃ left, openAfter [] ts = some left ∧
      left.length = depth :=
  Option.map_eq_some_iff

theorem nesting_eq_zero_iff :
    nesting ts = some 0 ↔ openAfter [] ts = some [] := by
  rw [nesting_eq_some_iff_openAfter]
  constructor
  · rintro ⟨left, h, hlength⟩
    rwa [List.eq_nil_of_length_eq_zero hlength] at h
  · exact fun h => ⟨[], h, rfl⟩

theorem nesting_eq_zero_iff_balanced : nesting ts = some 0 ↔ Balanced ts := by
  rw [nesting_eq_zero_iff]
  refine ⟨fun h => balanced_iff_wellMatched.2 ?_, fun h => h []⟩
  refine wellMatched_of_openAfter (forall_mem_bracketsOf ts) ?_
  rwa [openAfter_bracketsOf]

/-- The token that closes a bracket. -/
def closerOf : Bracket → Token
  | .round => ")"
  | .square => "]"

theorem closed?_closerOf (kind : Bracket) :
    Bracket.closed? (closerOf kind) = some kind := by
  cases kind <;> rfl

theorem openAfter_map_closerOf (stack : List Bracket) :
    openAfter stack (stack.map closerOf) = some [] := by
  induction stack with
  | nil => rfl
  | cons kind stack ih =>
    exact (openAfter_closer_eq_some (closed?_closerOf kind)).2 ⟨stack, rfl, ih⟩

/-- **Nesting is the number of openers without a partner**, in the beginning of
a word in which every bracket has one. The rest of such a word closes what is
on the stack, innermost first. -/
theorem nesting_eq_some_iff {depth : Nat} :
    nesting ts = some depth ↔
      ∃ rest, WellMatched (bracketsOf ts ++ rest) ∧
        openers ts = closers ts + depth := by
  rw [nesting_eq_some_iff_openAfter]
  constructor
  · rintro ⟨left, h, rfl⟩
    -- What completes the word are the closers of all that has been left open.
    refine ⟨left.map closerOf, wellMatched_of_openAfter ?_ ?_, ?_⟩
    · rw [List.forall_mem_append]
      refine ⟨forall_mem_bracketsOf ts, List.forall_mem_map.2 fun kind _ => ?_⟩
      exact isBracket_of_closed? (closed?_closerOf kind)
    · rw [openAfter_append, openAfter_bracketsOf, h]
      exact openAfter_map_closerOf left
    · have := length_add_openers h
      rw [List.length_nil] at this
      omega
  · rintro ⟨rest, hmatched, hcount⟩
    obtain ⟨left, h, -⟩ := exists_openAfter_of_append (hmatched.balanced [])
    rw [openAfter_bracketsOf] at h
    have := length_add_openers h
    rw [List.length_nil] at this
    exact ⟨left, h, by omega⟩

/-! ## Parts

Tokens are split while their depth is counted, and a separator counts where the
depth is zero. On balanced tokens the depth is the height of the stack, so a
part ends where its brackets are closed. That no part could be split further is
shown with it: in front of a separator in a part, some bracket is open. -/

/-- **Tokens without a separator outside brackets.** -/
def Undivided (sep : Token) (ts : List Token) : Prop :=
  ∀ front back, ts = front ++ sep :: back → nesting front ≠ some 0

theorem undivided_nil (sep : Token) : Undivided sep [] :=
  fun front back h => by simp at h

theorem Undivided.concat (h : Undivided sep ts)
    (ht : t = sep → nesting ts ≠ some 0) :
    Undivided sep (ts ++ [t]) := by
  intro front back hts
  obtain rfl | ⟨back, last, rfl⟩ := List.eq_nil_or_concat' back
  · obtain ⟨rfl, hlast⟩ := List.append_inj' hts rfl
    exact ht (List.cons.inj hlast).1
  · rw [← List.cons_append, ← List.append_assoc] at hts
    exact h front back (List.append_inj' hts rfl).1

/-- A part that has begun goes on until it is balanced and a separator follows.
The depth that is counted is the height of the stack. -/
theorem balanced_of_mem_splitFrom {part : List Token}
    (hsep : isBracket sep = false) (begun : List Token)
    (hbegun : openAfter [] begun.reverse = some stack)
    (hundivided : Undivided sep begun.reverse)
    (hts : openAfter stack ts = some [])
    (hpart : part ∈ splitFrom sep stack.length begun ts) :
    nesting part = some 0 ∧ Undivided sep part := by
  induction ts generalizing stack begun with
  | nil =>
    obtain rfl := Option.some.inj hts
    obtain rfl := List.mem_singleton.1 hpart
    exact ⟨nesting_eq_zero_iff.2 hbegun, hundivided⟩
  | cons t ts ih =>
    have hnext : ∀ {stack'}, openAfter stack [t] = some stack' →
        openAfter [] (t :: begun).reverse = some stack' := fun h => by
      rw [List.reverse_cons, openAfter_append, hbegun]
      exact h
    have hkeep : (t = sep → stack ≠ []) →
        Undivided sep (t :: begun).reverse := fun h => by
      rw [List.reverse_cons]
      refine hundivided.concat fun ht hnesting => h ht ?_
      rw [nesting_eq_zero_iff, hbegun] at hnesting
      exact Option.some.inj hnesting
    obtain ⟨kind, ho⟩ | ⟨kind, hc⟩ | hplain := bracket_cases t
    · rw [openAfter_opener ho] at hts
      rw [splitFrom_opener ho] at hpart
      refine ih _ (hnext (openAfter_opener ho stack [])) (hkeep fun ht => ?_)
        hts hpart
      rw [ht, (isBracket_eq_false_iff.1 hsep).1] at ho
      cases ho
    · obtain ⟨outer, rfl, hrest⟩ := (openAfter_closer_eq_some hc).1 hts
      rw [splitFrom_closer hc] at hpart
      refine ih _ (hnext ((openAfter_closer_eq_some hc).2 ⟨outer, rfl, rfl⟩))
        (hkeep fun _ => List.cons_ne_nil kind outer) hrest hpart
    · rw [openAfter_plain hplain] at hts
      obtain ⟨ho, hc⟩ := isBracket_eq_false_iff.1 hplain
      by_cases hends : t = sep ∧ stack.length = 0
      · obtain ⟨rfl, hlength⟩ := hends
        obtain rfl := List.eq_nil_of_length_eq_zero hlength
        rw [List.length_nil, splitFrom_sep ho hc] at hpart
        obtain rfl | hpart := List.mem_cons.1 hpart
        · exact ⟨nesting_eq_zero_iff.2 hbegun, hundivided⟩
        · exact ih [] rfl (undivided_nil t) hts hpart
      · rw [splitFrom_plain ho hc hends] at hpart
        refine ih _ (hnext (openAfter_plain hplain stack []))
          (hkeep fun ht hstack => ?_) hts hpart
        exact hends ⟨ht, congrArg List.length hstack⟩

/-- **Balanced tokens are split into balanced parts**, and as far as
possible. -/
theorem balanced_of_mem_splitTopLevel {part : List Token}
    (hsep : isBracket sep = false) (hts : nesting ts = some 0)
    (hpart : part ∈ splitTopLevel sep ts) :
    nesting part = some 0 ∧ Undivided sep part :=
  balanced_of_mem_splitFrom hsep [] rfl (undivided_nil sep)
    (nesting_eq_zero_iff.1 hts) hpart

/-! ## Runs

A run grows token by token, and every time the nesting of all of it is asked
for. It ends in front of the separator, or the closer, where the nesting is
zero for the first time. With what is known about parts and words this is where
the first part ends, or in front of the partner. -/

/-- In undivided tokens no run ends in front of a separator. -/
theorem Undivided.grow_eq_none (h : Undivided sep ts) :
    grow (upTo sep) [] ts = none := by
  cases hgrow : grow (upTo sep) [] ts with
  | none => rfl
  | some n =>
    obtain ⟨inner, rest, rfl, -, -, hnesting⟩ := exists_of_grow_upTo hgrow
    exact absurd hnesting (h inner rest rfl)

/-- In front of the first separator the run ends. -/
theorem Undivided.grow_eq_some (h : Undivided sep ts)
    (hts : nesting ts = some 0) (hne : ts ≠ []) (rest : List Token) :
    grow (upTo sep) [] (ts ++ sep :: rest) = some ts.length := by
  have hgrow := grow_upTo_of_openAfter [] (nesting_eq_zero_iff.1 hts)
    (fun front back hfront hopen =>
      h front back hfront (nesting_eq_zero_iff.2 hopen)) hne rest
  rwa [List.length_nil, Nat.zero_add] at hgrow

/-- **A run up to the separator is the first part**, if there is a second. -/
theorem grow_eq_of_splitTopLevel {first : List Token}
    {parts : List (List Token)} (hsep : isBracket sep = false)
    (hts : nesting ts = some 0) (hsplit : splitTopLevel sep ts = first :: parts)
    (hne : first ≠ []) :
    grow (upTo sep) [] ts = if parts = [] then none else some first.length := by
  have hjoined := intercalate_splitTopLevel sep ts
  obtain ⟨hfirst, hundivided⟩ := balanced_of_mem_splitTopLevel hsep hts
    (hsplit ▸ List.mem_cons_self : first ∈ splitTopLevel sep ts)
  rw [hsplit] at hjoined
  split
  · next hlast =>
    rw [hlast, List.intercalate_singleton] at hjoined
    exact hjoined ▸ hundivided.grow_eq_none
  · next hmore =>
    rw [← hjoined, intercalate_cons first hmore]
    exact hundivided.grow_eq_some hfirst hne _

/-- **A run up to a closing bracket is what stands between the two
partners.** -/
theorem grow_closer_eq_some_iff (hc : Bracket.closed? closer = some kind)
    {n : Nat} :
    grow (upTo closer) [] ts = some n ↔
      ∃ inner back, ts = inner ++ closer :: back ∧ inner ≠ [] ∧
        WellMatched (bracketsOf inner) ∧ n = inner.length := by
  constructor
  · intro h
    obtain ⟨inner, back, rfl, hne, rfl, hnesting⟩ := exists_of_grow_upTo h
    refine ⟨inner, back, rfl, hne, ?_, Nat.zero_add _⟩
    exact balanced_iff_wellMatched.1 (nesting_eq_zero_iff_balanced.1 hnesting)
  · rintro ⟨inner, back, rfl, hne, hmatched, rfl⟩
    exact (balanced_iff_wellMatched.2 hmatched).grow_upTo hc hne back

/-- **Scanning, splitting and growing cut tokens in the same places.** The
parts between separators give the tokens back. If the tokens are balanced, the
parts are balanced too and hold no separator outside brackets, and a run up to
the separator is the first part, or fails if that is the only one. Nesting is
the number of openers that have no partner in the beginning of a word in which
every bracket has one. And behind an opener a run up to its closer ends in
front of its partner, if it has one and there is something between the two;
otherwise it fails. -/
theorem bracket_scans_agree (ts : List Token) :
    (∀ sep, List.intercalate [sep] (splitTopLevel sep ts) = ts) ∧
    (∀ sep, isBracket sep = false → nesting ts = some 0 →
      (∀ part ∈ splitTopLevel sep ts, nesting part = some 0 ∧
        Undivided sep part) ∧
      ∀ first parts, splitTopLevel sep ts = first :: parts → first ≠ [] →
        (Test.sequence (upTo sep)).consume ts =
          if parts = [] then none else some first.length) ∧
    (∀ depth, nesting ts = some depth ↔
      ∃ rest, WellMatched (bracketsOf ts ++ rest) ∧
        openers ts = closers ts + depth) ∧
    ∀ front opener closer kind behind, ts = front ++ opener :: behind →
      Bracket.opened? opener = some kind → Bracket.closed? closer = some kind →
      ∀ n, (Test.sequence (upTo closer)).consume (ts.drop (front.length + 1))
        = some n ↔
        ∃ inner back, behind = inner ++ closer :: back ∧ inner ≠ [] ∧
          WellMatched (bracketsOf inner) ∧ n = inner.length := by
  refine ⟨fun sep => intercalate_splitTopLevel sep ts,
    fun sep hsep hts => ⟨fun part hpart => ?_,
      fun first parts hsplit hne => ?_⟩, fun depth => nesting_eq_some_iff, ?_⟩
  · exact balanced_of_mem_splitTopLevel hsep hts hpart
  · exact grow_eq_of_splitTopLevel hsep hts hsplit hne
  · rintro front opener closer kind behind rfl - hc n
    have hbehind : (front ++ opener :: behind).drop (front.length + 1)
        = behind := by
      rw [List.append_cons]
      exact List.drop_left' (List.length_append)
    rw [hbehind]
    exact grow_closer_eq_some_iff hc

/-- A call with two arguments, the second of them in brackets of the other
kind, in front of a comma: the run up to the comma is the whole call, and the
one behind the bracket its arguments. -/
theorem bracket_scans_agree_call :
    nesting ["f", "(", "a", ",", "[", "b", "]", ")", ",", "c"] = some 0 ∧
      (Test.sequence (upTo ",")).consume ["f", "(", "a", ",", "[", "b", "]",
        ")", ",", "c"]
        = some 8 ∧
      (Test.sequence (upTo ")")).consume ["a", ",", "[", "b", "]", ")", ",",
        "c"] = some 5 := by
  obtain ⟨-, hsplit, -, hbehind⟩ :=
    bracket_scans_agree ["f", "(", "a", ",", "[", "b", "]", ")", ",", "c"]
  have hnesting : nesting ["f", "(", "a", ",", "[", "b", "]", ")", ",", "c"]
      = some 0 := by decide
  refine ⟨hnesting, ?_, ?_⟩
  · exact (hsplit "," (by decide) hnesting).2 ["f", "(", "a", ",", "[", "b",
      "]", ")"] [["c"]] (by decide) (by decide)
  · exact (hbehind ["f"] "(" ")" .round _ rfl (by decide) (by decide) 5).2
      ⟨["a", ",", "[", "b", "]"], [",", "c"], rfl, by decide,
        .enclosed (rfl : Bracket.opened? "[" = some .square) rfl .nil .nil, rfl⟩

end StreamScript.Pattern
