import StreamScript.Regex.ClassName
import StreamScript.Regex.Fold
import StreamScript.Regex.Syntax
import StreamScript.Text.Blank
import StreamScript.Text.Cut

/-!
# Escapes

A backslash and what comes behind it stand for one character, for a class of
characters, or for a condition on a place. Characters that mean something to
expressions stand for themselves behind a backslash, and so do all others of
ASCII but letters and digits. Digits are refused, because they look like
references to groups, and so are the letters without a meaning.

What an escape means depends on the flags in force: in ASCII mode the named
classes hold ASCII only, and what could match part of a character is refused.
-/

namespace StreamScript.Regex

open Text (CharSet)

/-- **The flags**, all of them off at the beginning of an expression. -/
structure Flags where
  /-- Case does not matter. -/
  caseless : Bool := false
  /-- `^` and `$` look at lines. -/
  lines : Bool := false
  /-- A dot matches the ends of lines too. -/
  dotAll : Bool := false
  /-- Repetitions prefer few, and those marked with `?` many. -/
  lazy : Bool := false
  /-- Classes and boundaries know ASCII only. -/
  ascii : Bool := false
  /-- Lines also end in carriage returns. -/
  returns : Bool := false
  /-- Blanks and comments between the parts of an expression count for
  nothing. -/
  spaced : Bool := false

/-- Passes over blanks and comments, which run from `#` to the end of the line;
`comment` says whether one has begun. -/
def skipBlanks (comment : Bool) : List Char → List Char
  | [] => []
  | c :: rest =>
    if comment then skipBlanks (c != '\n') rest
    else if Text.isBlank c then skipBlanks false rest
    else if c == '#' then skipBlanks true rest
    else c :: rest

/-- What is left to read once blanks have been passed over, if they count for
nothing. -/
def Flags.past (flags : Flags) (cs : List Char) : List Char :=
  if flags.spaced then skipBlanks false cs else cs

/-- **A part of an expression** that is not put together from others. -/
inductive Atom where
  | literal (c : Char)
  /-- A named class. -/
  | named (s : CharSet)
  | look (l : Look)
  | dot

/-! ## Numbers -/

/-- Takes at most so many characters of a kind from the front, passing over
blanks behind each. -/
def takeRun (flags : Flags) (p : Char → Bool) :
    Nat → List Char → List Char × List Char
  | 0, cs => ([], cs)
  | most + 1, cs =>
    match cs with
    | [] => ([], [])
    | c :: rest =>
      if p c then
        let (more, rest) := takeRun flags p most (flags.past rest)
        (c :: more, rest)
      else ([], c :: rest)

/-- The character of a code point, which must not be a surrogate. -/
def charOf? (n : Nat) : Option Char :=
  if n.isValidChar then some (Char.ofNat n) else none

/-- The character that hexadecimal digits count. There has to be one digit. -/
def charOfDigits? (digits : List Char) : Option Char :=
  if digits.isEmpty then none
  else charOf?
    (digits.foldl (fun n c => 16 * n + ((Text.hexDigit? c).getD 0)) 0)

/-- Whether a character is a hexadecimal digit. -/
def isHexDigit (c : Char) : Bool :=
  (Text.hexDigit? c).isSome

/-- Reads the digits of a character's number: as many as `width` says, or any
number of them between braces. -/
def readHex (flags : Flags) (width : Nat) (cs : List Char) :
    Option (Char × List Char) :=
  match flags.past cs with
  | '{' :: rest => do
    let inside := flags.past rest
    let (digits, rest) := takeRun flags isHexDigit inside.length inside
    let c ← charOfDigits? digits
    match rest with
    | '}' :: rest => some (c, flags.past rest)
    | _ => none
  | cs => do
    let (digits, rest) := takeRun flags isHexDigit width cs
    let c ← charOfDigits? digits
    if digits.length = width then some (c, rest) else none

/-! ## Names of classes -/

/-- The set that a name between braces stands for, and whether it asks for the
other characters: a property alone, or a property and its value. A sign `!=`
between the two asks for the others. -/
def namedClass? (name : List Char) : Option (CharSet × Bool) :=
  match Text.breakOn ['!', '='] name with
  | some (property, value) => (valued property value).map (·, true)
  | none =>
    match (Text.breakOn [':'] name).or (Text.breakOn ['='] name) with
    | some (property, value) => (valued property value).map (·, false)
    | none => (property? (plainName name)).map (·, false)
where
  /-- The set of a property and a value. -/
  valued (property value : List Char) : Option CharSet :=
    propertyValue? (plainName property) (plainName value)

/-- Takes the characters up to a closing brace, passing over blanks that count
for nothing. -/
def takeBraced (flags : Flags) (cs : List Char) :
    Option (List Char × List Char) :=
  let (inside, rest) := takeRun flags (· != '}') cs.length (flags.past cs)
  match rest with
  | '}' :: rest => some (inside, rest)
  | _ => none

/-- A set in any case, if case does not matter. -/
def Flags.fold (flags : Flags) (s : CharSet) : CharSet :=
  if flags.caseless then folded flags.ascii s else s

/-- Reads the name of a class behind `\p` or `\P`. There are none in ASCII
mode. -/
def readNamedClass (flags : Flags) (negated : Bool) (cs : List Char) :
    Option (CharSet × List Char) :=
  if flags.ascii then none
  else
    match flags.past cs with
    | [] => none
    | '\\' :: _ => none
    | '{' :: rest => do
      let (name, rest) ← takeBraced flags rest
      let (s, others) ← namedClass? name
      some (.negatedIf (negated != others) (flags.fold s), rest)
    | c :: rest => do
      let s ← property? (plainName [c])
      some (.negatedIf negated (flags.fold s), flags.past rest)

/-- The classes of single letters; in ASCII mode their complements would match
parts of characters, and are refused. -/
def letterClass? (flags : Flags) (c : Char) : Option CharSet :=
  let named (unicode : CharSet) (ascii : String) (negated : Bool) :
      Option CharSet :=
    if flags.ascii then (if negated then none else asciiClass? ascii)
    else some (.negatedIf negated unicode)
  match c with
  | 'd' => named digits "digit" false
  | 'D' => named digits "digit" true
  | 's' => named Property.blank "space" false
  | 'S' => named Property.blank "space" true
  | 'w' => named wordChars "word" false
  | 'W' => named wordChars "word" true
  | _ => none

/-! ## Boundaries -/

/-- What words are made of. -/
def Flags.word (flags : Flags) : CharSet :=
  if flags.ascii then (asciiClass? "word").getD .empty else wordChars

/-- Whether a character may stand in the name of a boundary. -/
def isBoundaryChar (c : Char) : Bool :=
  ('a' ≤ c && c ≤ 'z') || ('A' ≤ c && c ≤ 'Z') || c == '-'

/-- The boundary of a name. -/
def boundary? (word : CharSet) (name : List Char) : Option Look :=
  match String.ofList name with
  | "start" => some (.wordStart word)
  | "end" => some (.wordEnd word)
  | "start-half" => some (.startHalf word)
  | "end-half" => some (.endHalf word)
  | _ => none

/-- Reads what may come behind `\b`: the name of a boundary between braces.
Braces that begin with something else are left alone. -/
def readBoundary (flags : Flags) (cs : List Char) : Option (Look × List Char) :=
  match cs with
  | '{' :: rest =>
    match flags.past rest with
    | [] => none
    | c :: rest =>
      if isBoundaryChar c then do
        let (name, rest) :=
          takeRun flags isBoundaryChar (rest.length + 1) (c :: rest)
        let look ← boundary? flags.word name
        match rest with
        | '}' :: rest => some (look, rest)
        | _ => none
      else some (.boundary flags.word, cs)
  | _ => some (.boundary flags.word, cs)

/-! ## Escapes -/

/-- The characters that stand for themselves behind a backslash. -/
def isPlainEscape (c : Char) : Bool :=
  c.toNat < 0x80 && !c.isAlphanum && c != '<' && c != '>'

/-- The control characters that letters stand for. -/
def control? : Char → Option Char
  | 'a' => some '\x07'
  | 'f' => some '\x0c'
  | 't' => some '\t'
  | 'n' => some '\n'
  | 'r' => some '\r'
  | 'v' => some '\x0b'
  | _ => none

/-- The conditions that single characters stand for. -/
def lookOf? (flags : Flags) : Char → Option Look
  | 'A' => some .textStart
  | 'z' => some .textEnd
  | 'B' => some (.noBoundary flags.word)
  | '<' => some (.wordStart flags.word)
  | '>' => some (.wordEnd flags.word)
  | _ => none

/-- Reads a character given by two digits. In ASCII mode those name a byte, and
a byte that is no character of ASCII is refused. -/
def readByte (flags : Flags) (cs : List Char) : Option (Atom × List Char) := do
  let (c, rest) ← readHex flags 2 cs
  let braced := (flags.past cs).head? == some '{'
  if flags.ascii && !braced && 0x80 ≤ c.toNat then none
      else some (.literal c, rest)

/-- **Reads what stands behind a backslash.** -/
def readEscape (flags : Flags) : List Char → Option (Atom × List Char)
  | [] => none
  | 'x' :: rest => readByte flags rest
  | 'u' :: rest => (readHex flags 4 rest).map fun (c, rest) =>
    (.literal c, rest)
  | 'U' :: rest => (readHex flags 8 rest).map fun (c, rest) =>
    (.literal c, rest)
  | 'p' :: rest => (readNamedClass flags false rest).map fun (c, rest) =>
    (.named c, rest)
  | 'P' :: rest => (readNamedClass flags true rest).map fun (c, rest) =>
    (.named c, rest)
  | 'b' :: rest => (readBoundary flags rest).map fun (l, rest) =>
    (.look l, rest)
  | c :: rest =>
    if isPlainEscape c then some (.literal c, rest)
    else
      match control? c, lookOf? flags c, letterClass? flags c with
      | some c, _, _ => some (.literal c, rest)
      | none, some l, _ => some (.look l, rest)
      | none, none, some c => some (.named c, rest)
      | none, none, none => none

end StreamScript.Regex
