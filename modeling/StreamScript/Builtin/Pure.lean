import StreamScript.Builtin.Catalogue
import StreamScript.Value.Operator
import StreamScript.Text.Cut
import StreamScript.Text.Case
import StreamScript.Text.Blank
import StreamScript.Json.Reader
import StreamScript.Regex.Replace

/-!
# Built-in functions of values alone

All built-in functions but the three that ask something of the host are
functions of their target and their arguments. They are grouped by what they
work on; `Builtin.apply` at the end is the table that puts them together.

Where a function has more than one thing to cast, the order of the casts is part
of what it does: the first that fails is the error.

Positions may be counted from the end of a list. `Value.position` resolves one,
and `clampRange` turns two of them into a stretch that lies inside the list
whatever they are.
-/

namespace StreamScript.Builtin

/-! ## Arguments -/

/-- An argument used as a text; a missing one is empty. -/
def textArgument (arguments : List Value) (i : Nat) : Except RunError String :=
  match arguments[i]? with
  | some v => v.asText
  | none => .ok ""

/-- An argument used as a number; a missing one is zero. -/
def numberArgument (arguments : List Value) (i : Nat) : Except RunError Float :=
  match arguments[i]? with
  | some v => v.asNumber
  | none => .ok 0

/-- The items of a target that has to be an array. -/
def itemsOf (b : Builtin) : Value → Except RunError (List Value)
  | .array items => .ok items
  | v => .error (.builtin b.name ("expects an array, got " ++ v.kind.name))

/-- The entries of a target that has to be a map. -/
def entriesOf (b : Builtin) : Value → Except RunError (Table Value)
  | .map entries => .ok entries
  | v => .error (.builtin b.name ("expects a map, got " ++ v.kind.name))

/-- A text from its characters, as a value. -/
def textOf (cs : List Char) : Value :=
  .text (String.ofList cs)

/-- A function of the characters of the target. -/
def onText (f : List Char → List Char) (target : Value) :
    Except RunError Value := do
  let s ← target.asText
  return textOf (f s.toList)

/-! ## Text -/

/-- The pieces of a text. The empty separator stands between any two
characters. -/
def pieces (sep cs : List Char) : List (List Char) :=
  if sep.isEmpty then cs.map fun c => [c] else Text.splitOn sep cs

/-- `split(separator)` -/
def splitText (target : Value) (arguments : List Value) :
    Except RunError Value := do
  let s ← target.asText
  let sep ← textArgument arguments 0
  return .array ((pieces sep.toList s.toList).map textOf)

/-- `join(separator?)` -/
def joinTexts (target : Value) (arguments : List Value) :
    Except RunError Value := do
  let sep ← textArgument arguments 0
  let items ← itemsOf .join target
  let texts ← items.mapM Value.asText
  return textOf (List.intercalate sep.toList (texts.map String.toList))

/-- `concat(a, …)`: arrays take items and the items of arrays, texts take
texts. -/
def concatenate (target : Value) (arguments : List Value) :
    Except RunError Value :=
  match target with
  | .array items =>
    .ok (.array (items ++ arguments.flatMap fun
      | .array more => more
      | v => [v]))
  | _ => do
    let s ← target.asText
    let more ← arguments.mapM Value.asText
    return .text (s ++ String.join more)

/-- `replace(find, with)` -/
def replaceText (target : Value) (arguments : List Value) :
    Except RunError Value := do
  let s ← target.asText
  let find ← textArgument arguments 0
  let put ← textArgument arguments 1
  return textOf (Text.replaceAll find.toList put.toList s.toList)

/-- The `n`-th piece of a text, counted from 1; empty if there is none. -/
def pieceNumber (sep : List Char) (n : Int) (cs : List Char) : List Char :=
  if n < 1 ∨ sep = [] then [] else (Text.pieceAt sep (n - 1).toNat cs).getD []

/-- `piece(separator, n)` -/
def pieceOfText (target : Value) (arguments : List Value) :
    Except RunError Value := do
  let s ← target.asText
  let sep ← textArgument arguments 0
  let n ← numberArgument arguments 1
  return textOf (pieceNumber sep.toList (Number.toInt64 n) s.toList)

/-- `startsWith(prefix)` and `endsWith(suffix)`, by the test they make. -/
def testText (test : List Char → List Char → Bool) (target : Value)
    (arguments : List Value) :
    Except RunError Value := do
  let s ← target.asText
  let part ← textArgument arguments 0
  return .truth (test part.toList s.toList)

/-! ## Numbers -/

/-- `modulo(divisor)` -/
def modulus (target : Value) (arguments : List Value) :
    Except RunError Value := do
  let x ← target.asNumber
  let y ← numberArgument arguments 0
  return .number (Number.remainder x y)

/-- The number that a value is or spells. -/
def parsedNumber : Value → Option Float
  | .number x => some x
  | .text s => Number.ofChars? (Text.trim s.toList)
  | _ => none

/-- `tryParseNum(default?)`: without a default the target stays as it is. -/
def tryParse (target : Value) (arguments : List Value) : Value :=
  match parsedNumber target, arguments.head? with
  | some x, _ => .number x
  | none, some default => default
  | none, none => target

/-- The most elements that `range` makes. -/
def mostInRange : Nat := 1000000

/-- The numbers from `start` in steps of one, up to but not including `stop`. -/
def rangeFrom (start stop : Float) : Except RunError Value :=
  match Number.ceiling (stop - start) with
  | some n =>
    if n ≤ mostInRange then
      .ok (.array ((List.range n.toNat).map fun i =>
        .number (start + Float.ofNat i)))
    else tooLong
  | none => tooLong
where
  /-- The error of a range that is too long, or has no length. -/
  tooLong : Except RunError Value :=
    .error (.builtin range.name ("range from " ++ Number.toText start ++ " to "
      ++ Number.toText stop ++ " exceeds " ++ toString mostInRange
      ++ " elements"))

/-- `range(end)` and `range(start, end)` -/
def rangeOf (arguments : List Value) : Except RunError Value :=
  match arguments[1]? with
  | some stop => do
    let start ← numberArgument arguments 0
    let stop ← stop.asNumber
    rangeFrom start stop
  | none => do
    let stop ← numberArgument arguments 0
    rangeFrom 0 stop

/-! ## Collections -/

/-- `at(key)`: an entry of a map, an element of an array, or a character of a
text. -/
def elementOf (target : Value) (arguments : List Value) :
    Except RunError Value :=
  let key := arguments.headD .empty
  match target with
  | .map entries =>
    match Value.entry? entries key with
    | some v => .ok v
    | none => .error (.missingKey key.display)
  | .array items => do
    let i := Number.toInt64 (← key.asNumber)
    match Value.elementAt? items i with
    | some v => return v
    | none => throw (.index i items.length)
  | _ => do
    let cs := (← target.asText).toList
    let i := Number.toInt64 (← key.asNumber)
    match Value.elementAt? cs i with
    | some c => return textOf [c]
    | none => throw (.index i cs.length)

/-- `length()` -/
def lengthOf (target : Value) : Except RunError Value :=
  match target with
  | .array items => .ok (.number (Float.ofNat items.length))
  | .map entries => .ok (.number (Float.ofNat entries.length))
  | _ => do
    let s ← target.asText
    return .number (Float.ofNat s.toList.length)

/-- `contains(value)`: an element equal to the value, a key, or a part of a
text. -/
def containsValue (target : Value) (arguments : List Value) :
    Except RunError Value :=
  let value := arguments.headD .empty
  match target with
  | .array items =>
    .ok (.truth (items.any fun item => (item.equals value).toOption.getD false))
  | .map entries => .ok (.truth <| Option.isSome <| Value.entry? entries value)
  | _ => testText Text.occurs target arguments

/-- A position counted from either end, moved into a list of the given
length. -/
def clampPosition (i : Int) (length : Nat) : Nat :=
  (max 0 (min (Value.position i length) length)).toNat

/-- **The stretch between two positions**, as its beginning and its end. It lies
inside the list and does not run backward. -/
def clampRange (start : Int) (stop : Option Int) (length : Nat) : Nat × Nat :=
  let a := clampPosition start length
  let b := (stop.map fun i => clampPosition i length).getD length
  (a, max a b)

/-- The elements of a list between two positions. -/
def sliceOf {α : Type} (start : Int) (stop : Option Int) (items : List α) :
    List α :=
  let (a, b) := clampRange start stop items.length
  (items.drop a).take (b - a)

/-- `slice(start, end?)` -/
def sliceValue (target : Value) (arguments : List Value) :
    Except RunError Value := do
  let start := Number.toInt64 (← numberArgument arguments 0)
  let stop ← (arguments[1]?).mapM Value.asNumber
  let stop := stop.map Number.toInt64
  match target with
  | .array items => return .array (sliceOf start stop items)
  | _ => onText (sliceOf start stop) target

/-- `flatten()` -/
def flattenArray (target : Value) : Except RunError Value := do
  let items ← itemsOf .flatten target
  return .array (items.flatMap fun
    | .array inner => inner
    | v => [v])

/-- `keys()` -/
def keysOf (target : Value) : Except RunError Value := do
  let entries ← entriesOf .keys target
  return .array (entries.keys.map Key.toValue)

/-- `values()` -/
def valuesOf (target : Value) : Except RunError Value := do
  let entries ← entriesOf .values target
  return .array (Table.values entries)

/-- `iif(condition, then, else)` -/
def choose (arguments : List Value) : Except RunError Value := do
  let condition ← (arguments.headD .empty).asTruth
  return if condition then arguments[1]?.getD .empty
    else arguments[2]?.getD .empty

/-! ## Formats -/

/-- `parseJson()` -/
def readJson (target : Value) : Except RunError Value := do
  let s ← target.asText
  match Json.ofChars? s.toList with
  | some j => return .ofJson j
  | none => throw .json

/-- An argument used as a regular expression. -/
def regexArgument (arguments : List Value) (i : Nat) :
    Except RunError Regex := do
  let pattern ← textArgument arguments i
  match Regex.ofPattern? pattern with
  | some re => return re
  | none => throw .regex

/-- `isMatch(pattern)` -/
def matchesRegex (target : Value) (arguments : List Value) :
    Except RunError Value := do
  let re ← regexArgument arguments 0
  let s ← target.asText
  return .truth (re.isMatch s.toList)

/-- `regexReplace(pattern, with)` -/
def replaceRegex (target : Value) (arguments : List Value) :
    Except RunError Value := do
  let re ← regexArgument arguments 0
  let template ← textArgument arguments 1
  let s ← target.asText
  return textOf (re.replaceAll template.toList s.toList)

/-! ## The table -/

/-- **Applies a function that needs no host.** Those that do need one are not
known here. -/
def apply (b : Builtin) (target : Value) (arguments : List Value) :
    Except RunError Value :=
  match b with
  | split => splitText target arguments
  | join => joinTexts target arguments
  | concat => concatenate target arguments
  | replace => replaceText target arguments
  | piece => pieceOfText target arguments
  | «at» => elementOf target arguments
  | length => lengthOf target
  | contains => containsValue target arguments
  | startsWith => testText List.isPrefixOf target arguments
  | endsWith => testText List.isSuffixOf target arguments
  | trim => onText Text.trim target
  | trimStart => onText Text.trimStart target
  | trimEnd => onText Text.trimEnd target
  | toUpper => onText Text.toUpper target
  | toLower => onText Text.toLower target
  | toText => onText id target
  | modulo => modulus target arguments
  | tryParseNum => .ok (tryParse target arguments)
  | range => rangeOf arguments
  | slice => sliceValue target arguments
  | flatten => flattenArray target
  | keys => keysOf target
  | values => valuesOf target
  | iif => choose arguments
  | parseJson => readJson target
  | toJson => .ok (.text target.jsonText)
  | isMatch => matchesRegex target arguments
  | regexReplace => replaceRegex target arguments
  | sideOutput | getFiles | loadFile => .error (.unknownFunction b.name)

end StreamScript.Builtin
