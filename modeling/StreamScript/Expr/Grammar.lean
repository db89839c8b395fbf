import StreamScript.Expr.Precedence
import StreamScript.Pattern.Rule

/-!
# Reading expressions

Reading goes in two steps. The tokens are first walked from left to right as an
alternation of operands and operators; what stands in brackets is cut out whole
and read on its own. The alternation is then folded by `Alternation.reduce`.

What may stand as an operand is the table `operandRules`. Calls come before
bare names and the forms with empty brackets before those with something in
them; a sign takes the operand behind it.

Every step looks at fewer tokens than the one before: an operand leaves a
shorter rest, and what stands in brackets is shorter than what holds the
brackets (`Pattern.length_lt_of_get?`).
-/

namespace StreamScript

open Pattern (Entry Rules Captures upTo splitTopLevel)

/-- **The forms of an operand.** -/
inductive Operand where
  | call
  | group
  | array
  | sign
  | number
  | text
  | truth
  | stream
  | index
  | name
deriving DecidableEq, Repr

/-- The table of operands, in the order in which they are tried. -/
def operandRules : Rules Operand :=
  let name := (Entry.satisfying isIdentifier).named "name"
  [([name, .token "(", .token ")"], .call),
   ([name, .token "(", (Entry.sequence (upTo ")")).named "args", .token ")"],
     .call),
   ([.token "(", (Entry.sequence (upTo ")")).named "inner", .token ")"],
     .group),
   ([.token "[", ((Entry.sequence (upTo "]")).named "items").orNothing,
     .token "]"], .array),
   ([(Entry.oneOf ["-", "!"]).named "op"], .sign),
   ([(Entry.satisfying isNumberToken).named "lit"], .number),
   ([(Entry.satisfying isStringToken).named "lit"], .text),
   ([(Entry.oneOf ["true", "false"]).named "lit"], .truth),
   ([.token "stream"], .stream),
   ([.token "index"], .index),
   ([name], .name)]

/-- The operands that have something in brackets. -/
def Operand.encloses : Operand → Bool
  | .call | .group | .array => true
  | _ => false

/-- The patterns of enclosing operands require their brackets. -/
theorem unrecorded_operandRules :
    ∀ rule ∈ operandRules, rule.2.encloses = true →
      0 < Pattern.unrecorded rule.1 := by
  simp [operandRules, Operand.encloses, Pattern.unrecorded, Entry.named,
    Entry.token, Entry.sequence, Entry.orNothing, Entry.satisfying, Entry.oneOf]

/-- What an operand has in brackets is shorter than the tokens it stands in. -/
theorem length_lt_of_enclosed {tokens slice : List Token} {operand : Operand}
    {caps : Captures} {key : String}
    (h : operandRules.firstPartial tokens 0 = some (operand, caps))
    (he : operand.encloses = true) (hs : caps.get? key = some slice) :
    slice.length < tokens.length := by
  obtain ⟨p, hmem, hw⟩ := Rules.exists_of_firstPartial h
  exact Pattern.length_lt_of_get? hw (unrecorded_operandRules _ hmem he) hs

/-- Every pattern of an operand requires its first token. -/
theorem head_required_of_mem_operandRules :
    ∀ rule ∈ operandRules, rule.1.head?.any (fun e => !e.optional) = true := by
  simp [operandRules, Entry.named, Entry.token, Entry.sequence, Entry.orNothing,
    Entry.satisfying, Entry.oneOf]

/-- An operand takes at least one token. -/
theorem consumed_pos_of_operand {tokens : List Token} {operand : Operand}
    {caps : Captures}
    (h : operandRules.firstPartial tokens 0 = some (operand, caps)) :
    0 < caps.consumed ∧ caps.consumed ≤ tokens.length := by
  obtain ⟨p, hmem, hw⟩ := Rules.exists_of_firstPartial h
  refine ⟨?_, by simpa using Pattern.consumed_le_of_walk hw⟩
  have hr := head_required_of_mem_operandRules _ hmem
  cases p with
  | nil => simp at hr
  | cons e es =>
    simp only [List.head?_cons, Option.any_some, Bool.not_eq_true'] at hr
    simp only [Pattern.walk, hr] at hw
    split at hw
    · rename_i n hn
      obtain ⟨c, -, rfl⟩ := Option.map_eq_some_iff.1 hw
      have := (Pattern.Test.consume_bounds hn).1
      simp only
      omega
    · simp at hw

/-- What is left of the tokens, which is less than they were. -/
abbrev Shorter (tokens : List Token) : Type :=
  { rest : List Token // rest.length < tokens.length }

/-- A part of the tokens, which is no more than they are. -/
abbrev PartOf (tokens : List Token) : Type :=
  { part : List Token // part.length ≤ tokens.length }

/-- The parts of a list between its commas. -/
def partsOf (tokens : List Token) : List (PartOf tokens) :=
  (splitTopLevel "," tokens).attach.map fun part =>
    ⟨part.1, Pattern.length_le_of_mem_splitTopLevel part.2⟩

/-- The parts of a list are those that splitting yields. -/
theorem map_val_partsOf (tokens : List Token) :
    (partsOf tokens).map Subtype.val = splitTopLevel "," tokens := by
  simp [partsOf, Function.comp_def]

mutual

/-- **Reads an expression**, which takes all the tokens. -/
def parseExpr (tokens : List Token) : Except GrammarError Expr :=
  if tokens.isEmpty then .error .expectedExpression
  else
    match parseAlternation tokens with
    | .ok a => .ok a.reduce
    | .error e => .error e
termination_by (tokens.length, 2)

/-- Reads an alternation of operands and operators, which takes all the
tokens. -/
def parseAlternation (tokens : List Token) : Except GrammarError Alternation :=
  match parseOperand tokens with
  | .error e => .error e
  | .ok (operand, ⟨[], _⟩) => .ok ⟨operand, []⟩
  | .ok (operand, ⟨t :: rest, _hlt⟩) =>
    match BinaryOp.ofToken? t with
    | none => .error (.unexpectedToken t)
    | some op =>
      if rest.isEmpty then .error (.operandAfter t)
      else
        match parseAlternation rest with
        | .ok a => .ok ⟨operand, (op, a.head) :: a.tail⟩
        | .error e => .error e
termination_by (tokens.length, 1)
decreasing_by
  · exact Prod.Lex.right _ (by decide)
  · exact Prod.Lex.left _ _ (by simp only [List.length_cons] at _hlt; omega)

/-- Reads one operand and returns what follows it. -/
def parseOperand (tokens : List Token) :
    Except GrammarError (Expr × Shorter tokens) :=
  match _h : operandRules.firstPartial tokens 0 with
  | none =>
    match tokens with
    | t :: _ => .error (.unexpectedToken t)
    | [] => .error .expectedOperand
  | some (operand, caps) =>
    let literal := (caps.token? "lit").getD ""
    let name := (caps.token? "name").getD ""
    have hlt : (tokens.drop caps.consumed).length < tokens.length := by
      have := consumed_pos_of_operand _h
      simp only [List.length_drop]
      omega
    let rest : Shorter tokens := ⟨tokens.drop caps.consumed, hlt⟩
    match _ho : operand with
    | .call =>
      match _hs : caps.get? "args" with
      | none => .ok (.call name [], rest)
      | some slice =>
        match parseParts (partsOf slice) with
        | .ok arguments => .ok (.call name arguments, rest)
        | .error e => .error e
    | .group =>
      match _hs : caps.get? "inner" with
      | none => .error .expectedExpression
      | some slice =>
        match parseExpr slice with
        | .ok inner => .ok (.group inner, rest)
        | .error e => .error e
    | .array =>
      match _hs : caps.get? "items" with
      | none => .ok (.array [], rest)
      | some slice =>
        match parseParts (partsOf slice) with
        | .ok items => .ok (.array items, rest)
        | .error e => .error e
    | .sign =>
      let op := if caps.token? "op" = some "-" then UnaryOp.negate else .not
      match parseOperand rest.1 with
      | .ok (inner, rest') =>
        .ok (.unary op inner, ⟨rest'.1, Nat.lt_trans rest'.2 rest.2⟩)
      | .error e => .error e
    | .number =>
      match Number.ofChars? literal.toList with
      | some x => .ok (.number x, rest)
      | none => .error (.invalidNumber literal)
    | .text =>
      match unquote? literal with
      | some s => .ok (.text s, rest)
      | none => .error (.invalidString literal)
    | .truth => .ok (.truth (literal == "true"), rest)
    | .stream => .ok (.stream, rest)
    | .index => .ok (.index, rest)
    | .name => .ok (.name name, rest)
termination_by (tokens.length, 0)
decreasing_by
  · exact Prod.Lex.left _ _ (length_lt_of_enclosed _h rfl _hs)
  · exact Prod.Lex.left _ _ (length_lt_of_enclosed _h rfl _hs)
  · exact Prod.Lex.left _ _ (length_lt_of_enclosed _h rfl _hs)
  · exact Prod.Lex.left _ _ rest.2

/-- Reads the parts of a list, each of which takes all of its tokens. -/
def parseParts {tokens : List Token} (parts : List (PartOf tokens)) :
    Except GrammarError (List Expr) :=
  match parts with
  | [] => .ok []
  | part :: parts =>
    match parseExpr part.1 with
    | .ok e =>
      match parseParts parts with
      | .ok es => .ok (e :: es)
      | .error err => .error err
    | .error err => .error err
termination_by (tokens.length, parts.length + 2)
decreasing_by
  · rcases Nat.lt_or_eq_of_le part.2 with h | h
    · exact Prod.Lex.left _ _ h
    · rw [h]
      exact Prod.Lex.right _ (by simp only [List.length_cons]; omega)
  · exact Prod.Lex.right _ (by simp)

end

/-- **Reads a list of expressions** separated by commas. -/
def parseList (tokens : List Token) : Except GrammarError (List Expr) :=
  parseParts (partsOf tokens)

end StreamScript
