import StreamScript.Json.Basic
import StreamScript.Number.Style

/-!
# Writing JSON

`compact` writes a value without any blanks, `pretty` over several lines with
two blanks per level. Both write strings and numbers alike; they differ only in
what stands between the parts of arrays and objects.

In a string the quote, the backslash and the control characters are escaped and
everything else stands for itself.
-/

namespace StreamScript.Json

/-- The last hexadecimal digit of a number. -/
def lastHexDigit (n : Nat) : Char :=
  let d := n % 16
  if d < 10 then Char.ofNat ('0'.toNat + d)
      else Char.ofNat ('a'.toNat + (d - 10))

/-- A character as it stands inside a string. -/
def escape (c : Char) : List Char :=
  if c = '"' then ['\\', '"']
  else if c = '\\' then ['\\', '\\']
  else if c = '\x08' then ['\\', 'b']
  else if c = '\x0c' then ['\\', 'f']
  else if c = '\n' then ['\\', 'n']
  else if c = '\r' then ['\\', 'r']
  else if c = '\t' then ['\\', 't']
  else if c.toNat < 0x20 then
    ['\\', 'u', '0', '0', lastHexDigit (c.toNat / 16), lastHexDigit c.toNat]
  else [c]

/-- A string between quotes. -/
def quoted (s : String) : List Char :=
  '"' :: s.toList.flatMap escape ++ ['"']

mutual

/-- **The compact text of a value.** -/
def compact : Json → List Char
  | .null => ['n', 'u', 'l', 'l']
  | .bool true => ['t', 'r', 'u', 'e']
  | .bool false => ['f', 'a', 'l', 's', 'e']
  | .integer n => Number.intText n
  | .decimal x => Number.json.render x
  | .string s => quoted s
  | .array [] => ['[', ']']
  | .array (item :: rest) => '[' :: compact item ++ compactRest rest
  | .object [] => ['\x7b', '\x7d']
  | .object ((name, value) :: rest) =>
    '\x7b' :: quoted name ++ ':' :: compact value ++ compactMembers rest

/-- The items of an array after the first, and its end. -/
def compactRest : List Json → List Char
  | [] => [']']
  | item :: rest => ',' :: compact item ++ compactRest rest

/-- The members of an object after the first, and its end. -/
def compactMembers : List (String × Json) → List Char
  | [] => ['\x7d']
  | (name, value) :: rest =>
    ',' :: quoted name ++ ':' :: compact value ++ compactMembers rest

end

/-- A new line at the given depth. -/
def newline (depth : Nat) : List Char :=
  '\n' :: List.replicate (2 * depth) ' '

mutual

/-- **The text of a value over several lines**, `depth` levels deep. -/
def pretty (depth : Nat) : Json → List Char
  | .array [] => ['[', ']']
  | .array (item :: rest) =>
    '[' :: newline (depth + 1) ++ pretty (depth + 1) item
      ++ prettyRest depth rest
  | .object [] => ['\x7b', '\x7d']
  | .object ((name, value) :: rest) =>
    '\x7b' :: newline (depth + 1) ++ quoted name ++ ':' :: ' '
      :: pretty (depth + 1) value
      ++ prettyMembers depth rest
  | value => compact value

/-- The items of an array after the first, and its end. -/
def prettyRest (depth : Nat) : List Json → List Char
  | [] => newline depth ++ [']']
  | item :: rest =>
    ',' :: newline (depth + 1) ++ pretty (depth + 1) item
      ++ prettyRest depth rest

/-- The members of an object after the first, and its end. -/
def prettyMembers (depth : Nat) : List (String × Json) → List Char
  | [] => newline depth ++ ['\x7d']
  | (name, value) :: rest =>
    ',' :: newline (depth + 1) ++ quoted name ++ ':' :: ' '
      :: pretty (depth + 1) value
      ++ prettyMembers depth rest

end

end StreamScript.Json
