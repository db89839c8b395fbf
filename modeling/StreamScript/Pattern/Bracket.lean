/-!
# Brackets in token lists

The grammar finds the extent of what stands in brackets before it looks at what
that is. Three questions are asked about a list of tokens.

How deep does it end? `nesting` keeps the brackets still open on a stack and
answers with their number, or not at all if a closer meets the wrong opener.

Where may a run of tokens end? A `Validator` judges a growing run together with
the token that would follow it. `upTo stop` ends it, balanced, before `stop`;
`balanced` only at the end of the line.

Where do separators divide it? `splitTopLevel` cuts at the separators outside
brackets. It counts depth without regard to the kind of bracket, which is all
it needs on tokens that are balanced.
-/

namespace StreamScript

/-- A token is the text it was written as. -/
abbrev Token : Type := String

/-- The two kinds of brackets. -/
inductive Bracket where
  | round
  | square
deriving DecidableEq, Repr

namespace Bracket

/-- The bracket that a token opens. -/
def opened? (t : Token) : Option Bracket :=
  if t = "(" then some .round else if t = "[" then some .square else none

/-- The bracket that a token closes. -/
def closed? (t : Token) : Option Bracket :=
  if t = ")" then some .round else if t = "]" then some .square else none

/-- No token opens and closes. -/
theorem closed?_of_opened? {t : Token} {b : Bracket} (h : opened? t = some b) :
    closed? t = none := by
  unfold opened? at h
  split at h
  · subst_vars; rfl
  · split at h
    · subst_vars; rfl
    · simp at h

end Bracket

namespace Pattern

/-- The brackets left open by some tokens, innermost first, after those in
`stack`; none if a closer does not match. -/
def openAfter (stack : List Bracket) : List Token → Option (List Bracket)
  | [] => some stack
  | t :: ts =>
    match Bracket.opened? t with
    | some b => openAfter (b :: stack) ts
    | none =>
      match Bracket.closed? t with
      | none => openAfter stack ts
      | some b =>
        match stack with
        | top :: stack => if top = b then openAfter stack ts else none
        | [] => none

/-- **How many brackets are left open**, or none if a closer does not match. -/
def nesting (tokens : List Token) : Option Nat :=
  (openAfter [] tokens).map List.length

/-- Reading on after some tokens is reading from the stack they leave. -/
theorem openAfter_append (stack : List Bracket) (a b : List Token) :
    openAfter stack (a ++ b) = (openAfter stack a).bind fun s =>
      openAfter s b := by
  induction a generalizing stack with
  | nil => rfl
  | cons t ts ih =>
    simp only [List.cons_append, openAfter]
    split
    · exact ih _
    · split
      · exact ih _
      · split
        · split
          · exact ih _
          · rfl
        · rfl

/-! ## Validators -/

/-- The answer about a run of tokens that may still grow. -/
inductive Verdict where
  /-- No longer run will do either. -/
  | reject
  /-- The run ends here. -/
  | accept
  /-- The run goes on. -/
  | undecided
deriving DecidableEq, Repr

/-- **Judges a run of tokens**, given the token that follows it. -/
abbrev Validator : Type := List Token → Option Token → Verdict

/-- Accepts the shortest balanced run that `stop` follows. -/
def upTo (stop : Token) : Validator := fun run next =>
  match nesting run with
  | none => .reject
  | some depth =>
    if depth = 0 ∧ next = some stop then .accept
    else if next = none then .reject
    else .undecided

/-- Accepts a balanced run to the end of the tokens. -/
def balanced : Validator := fun run next =>
  match nesting run with
  | none => .reject
  | some depth =>
    if next = none then (if depth = 0 then .accept else .reject) else .undecided

/-! ## Splitting -/

/-- Splits tokens `depth` brackets deep, with the part that has begun kept in
reverse. -/
def splitFrom (sep : Token) (depth : Nat) (begun : List Token) :
    List Token → List (List Token)
  | [] => [begun.reverse]
  | t :: ts =>
    if (Bracket.opened? t).isSome then splitFrom sep (depth + 1) (t :: begun) ts
    else if (Bracket.closed? t).isSome
      then splitFrom sep (depth - 1) (t :: begun) ts
    else if t = sep ∧ depth = 0 then begun.reverse :: splitFrom sep depth [] ts
    else splitFrom sep depth (t :: begun) ts

/-- **The parts between the separators outside brackets.** -/
def splitTopLevel (sep : Token) (tokens : List Token) : List (List Token) :=
  splitFrom sep 0 [] tokens

/-- Splitting loses no token: the parts hold as many as the whole, less the
separators. -/
theorem length_le_of_mem_splitFrom {sep : Token} {depth : Nat}
    {begun tokens part : List Token}
    (h : part ∈ splitFrom sep depth begun tokens) :
    part.length ≤ begun.length + tokens.length := by
  induction tokens generalizing depth begun with
  | nil => simp_all [splitFrom]
  | cons t ts ih =>
    simp only [splitFrom] at h
    simp only [List.length_cons]
    split at h
    · have := ih h
      simp only [List.length_cons] at this
      omega
    · split at h
      · have := ih h
        simp only [List.length_cons] at this
        omega
      · split at h
        · rcases List.mem_cons.1 h with rfl | h
          · simp only [List.length_reverse]
            omega
          · have := ih h
            simp only [List.length_nil] at this
            omega
        · have := ih h
          simp only [List.length_cons] at this
          omega

/-- No part is longer than the whole. -/
theorem length_le_of_mem_splitTopLevel {sep : Token} {tokens part : List Token}
    (h : part ∈ splitTopLevel sep tokens) : part.length ≤ tokens.length := by
  simpa using length_le_of_mem_splitFrom h

end Pattern

end StreamScript
