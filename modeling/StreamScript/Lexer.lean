import StreamScript.Pattern.Scan
import StreamScript.Number.Reader
import StreamScript.Text.Blank
import StreamScript.Fault

/-!
# From lines to tokens

A line of a script is its indentation and a list of tokens. Tokens have no
classes of their own: a token is the text it was written as, and the grammar
tells words from numbers by looking at it. The lexer's classes only say where
one token ends and the next begins.

At every position the classes are tried in a fixed order – blanks, quoted
strings, symbols of two characters, symbols of one, numbers, words – and the
first that takes a prefix of the rest decides. A minus sign is always a token
of its own, so a number stops in front of it, and a number never ends in a
point, which then belongs to what follows.

A line whose first visible character is `#` is a comment. It has no tokens, as
a blank line has none.
-/

namespace StreamScript

open Pattern (Scan Verdict firstPrefix)

/-- The symbols of two characters. -/
def twoCharSymbols : List String :=
  ["::", ":=", ">>", "<<", "<=", ">=", "!="]

/-- The symbols of one character. -/
def oneCharSymbols : List String :=
  ["+", "-", "=", "/", "*", "!", ";", "\\", "(", ")", "[", "]", ",", "<", ">",
    "&", "|", ":", "."]

/-! ## Classes of characters and tokens -/

/-- Whether a character may stand in a number token. -/
def isNumberChar (c : Char) : Bool :=
  Number.isDigit c || c == '.' || c == 'e' || c == 'E' || c == '+' || c == '-'

/-- **The texts of number tokens**: they begin with a digit, do not end in a
point, have no minus sign, and read as a number. -/
def isNumberText (cs : List Char) : Bool :=
  (cs.head?.any Number.isDigit) && cs.getLast? != some '.' && !cs.contains '-'
    && (Number.Literal.ofChars? cs).isSome

/-- Whether a character is an ASCII letter. -/
def isLetter (c : Char) : Bool :=
  ('a' ≤ c && c ≤ 'z') || ('A' ≤ c && c ≤ 'Z')

/-- Whether a character may begin a word. -/
def startsWord (c : Char) : Bool :=
  isLetter c || c == '_' || c == '$'

/-- Whether a character may stand in a word. -/
def isWordChar (c : Char) : Bool :=
  startsWord c || Number.isDigit c

/-- The texts that begin like a word. -/
def isWordText (cs : List Char) : Bool :=
  cs.head?.any startsWord

/-- Whether the characters after an opening quote close it exactly at their end:
the first quote that no backslash escapes is the last character. -/
def closesAtEnd : List Char → Bool
  | [] => false
  | '"' :: rest => rest.isEmpty
  | '\\' :: _ :: rest => closesAtEnd rest
  | '\\' :: [] => false
  | _ :: rest => closesAtEnd rest

/-- **Judges a growing quoted string**: it is complete at its closing quote. -/
def judgeQuoted (taken : List Char) (next : Option Char) : Verdict :=
  match taken with
  | '"' :: inside =>
    if closesAtEnd inside then .accept
    else if next.isNone then .reject
    else .undecided
  | _ => .reject

/-- The classes the lexer tells apart. -/
inductive TokenClass where
  | space
  | text
  | symbol
  | number
  | word
deriving DecidableEq, Repr

/-- **The rules of the lexer**, in the order in which they are tried. -/
def tokenRules : List (Scan × TokenClass) :=
  [(.longest Text.isBlank fun _ => true, .space),
   (.sequence judgeQuoted, .text),
   (.literal (twoCharSymbols.map String.toList), .symbol),
   (.literal (oneCharSymbols.map String.toList), .symbol),
   (.longest isNumberChar isNumberText, .number),
   (.longest isWordChar isWordText, .word)]

/-- Every rule takes at least one character. -/
theorem proper_of_mem_tokenRules : ∀ rule ∈ tokenRules, rule.1.Proper := by
  simp only [tokenRules, List.forall_mem_cons, Scan.Proper, List.not_mem_nil,
    true_and, false_implies, implies_true, and_true]
  exact ⟨by decide, by decide⟩

/-! ## Lines -/

/-- **A line in tokens.** -/
structure LexLine where
  /-- The number of blanks it begins with. -/
  tabDepth : Nat
  tokens : List Token
  /-- The line as it was written. -/
  text : String
deriving DecidableEq, Repr

/-- Blank lines and comments have no tokens. -/
def LexLine.isBlank (l : LexLine) : Bool :=
  l.tokens.isEmpty

/-- The error about a text that no rule takes a prefix of. -/
def lexErrorAt (line : Nat) (rest : List Char) : LexError :=
  if rest.head? = some '"' then .unterminatedString line
  else .unmatched line (String.ofList rest)

/-- **The tokens of a text**, continuing those in `done`, which are kept in
reverse. -/
def tokensFrom (line : Nat) (done : List Token) (cs : List Char) :
    Except LexError (List Token) :=
  if cs.isEmpty then .ok done.reverse
  else
    match _h : firstPrefix tokenRules cs with
    | none => .error (lexErrorAt line cs)
    | some (.space, taken) => tokensFrom line done (cs.drop taken.length)
    | some (_, taken) =>
      tokensFrom line (String.ofList taken :: done) (cs.drop taken.length)
termination_by cs.length
decreasing_by
  all_goals
    obtain ⟨hne, hp⟩ := Pattern.prefix_of_firstPrefix proper_of_mem_tokenRules _h
    have hpos := List.length_pos_iff.2 hne
    have hle := hp.length_le
    simp only [List.length_drop]
    omega

/-- **Lexes one line.** Its number serves only to report an error. -/
def lexLine (text : String) (line : Nat) : Except LexError LexLine :=
  let cs := text.toList
  let body := Text.trimStart cs
  let depth := (Text.indent cs).length
  if body.head? = some '#' then .ok ⟨depth, [], text⟩
  else
    match tokensFrom line [] body with
    | .ok tokens => .ok ⟨depth, tokens, text⟩
    | .error e => .error e

/-! ## Tokens seen on their own -/

/-- Whether a token is a number. -/
def isNumberToken (t : Token) : Bool :=
  isNumberText t.toList

/-- Whether a token is a quoted string: it begins and ends with a quote, and
the two are not the same. -/
def isStringToken (t : Token) : Bool :=
  let cs := t.toList
  2 ≤ cs.length && cs.head? == some '"' && cs.getLast? == some '"'

/-- Whether a token is a word. -/
def isWordToken (t : Token) : Bool :=
  isWordText t.toList && t.toList.all isWordChar

/-- The characters that an escaped text stands for. A backslash with nothing
behind it stands for itself. -/
def unescape : List Char → List Char
  | '\\' :: c :: rest =>
    (if c = 'n' then '\n' else if c = 't' then '\t' else if c = 'r'
      then '\r' else c)
      :: unescape rest
  | c :: rest => c :: unescape rest
  | [] => []

/-- **The text that a quoted string stands for**, if the token is one. -/
def unquote? (t : Token) : Option String :=
  match t.toList with
  | '"' :: inside =>
    if inside.getLast? = some '"'
        then some (String.ofList (unescape inside.dropLast)) else none
  | _ => none

example : (lexLine "  a::map >> 3.25x" 1).toOption.map LexLine.tokens
    = some ["a", "::", "map", ">>", "3.25", "x"] := by decide +kernel

end StreamScript
