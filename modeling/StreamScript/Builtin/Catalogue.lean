import StreamScript.Fault

/-!
# The catalogue of built-in functions

Every built-in function works on a target – the stream, or what stands before
the colon – and takes arguments. Its entry in the catalogue says how many, what
they are called, and what the function does. The catalogue is what calls are
checked against and what the list of symbols is made from, so the two cannot
disagree.
-/

namespace StreamScript

/-- **The built-in functions.** -/
inductive Builtin where
  | split
  | join
  | concat
  | replace
  | piece
  | «at»
  | length
  | contains
  | startsWith
  | endsWith
  | trim
  | trimStart
  | trimEnd
  | toUpper
  | toLower
  | toText
  | modulo
  | tryParseNum
  | range
  | slice
  | flatten
  | keys
  | values
  | iif
  | parseJson
  | toJson
  | isMatch
  | regexReplace
  | sideOutput
  | getFiles
  | loadFile
deriving DecidableEq, Repr

namespace Builtin

/-- **An entry of the catalogue.** The first `least` parameters are required. -/
structure Spec where
  name : String
  least : Nat
  most : Nat
  params : List String
  summary : String
deriving DecidableEq, Repr

/-- The entry of a function. -/
def spec : Builtin → Spec
  | split => ⟨"split", 1, 1, ["separator"], "split text into an array"⟩
  | join => ⟨"join", 0, 1, ["separator"], "join array elements into text"⟩
  | concat =>
    ⟨"concat", 1, 8, ["a", "b", "c", "d", "e", "f", "g", "h"],
      "append text or array elements"⟩
  | replace => ⟨"replace", 2, 2, ["find", "with"], "replace every occurrence"⟩
  | piece => ⟨"piece", 2, 2, ["separator", "n"], "n-th (1-based) piece of text"⟩
  | «at» => ⟨"at", 1, 1, ["key"], "element by index or key"⟩
  | length => ⟨"length", 0, 0, [], "characters, elements or entries"⟩
  | contains => ⟨"contains", 1, 1, ["value"], "substring, element or key test"⟩
  | startsWith => ⟨"startsWith", 1, 1, ["prefix"], "text prefix test"⟩
  | endsWith => ⟨"endsWith", 1, 1, ["suffix"], "text suffix test"⟩
  | trim => ⟨"trim", 0, 0, [], "strip surrounding whitespace"⟩
  | trimStart => ⟨"trimStart", 0, 0, [], "strip leading whitespace"⟩
  | trimEnd => ⟨"trimEnd", 0, 0, [], "strip trailing whitespace"⟩
  | toUpper => ⟨"toUpper", 0, 0, [], "upper-case text"⟩
  | toLower => ⟨"toLower", 0, 0, [], "lower-case text"⟩
  | toText => ⟨"toText", 0, 0, [], "cast to text"⟩
  | modulo => ⟨"modulo", 1, 1, ["divisor"], "floating-point remainder"⟩
  | tryParseNum => ⟨"tryParseNum", 0, 1, ["default"], "parse text as a number"⟩
  | range => ⟨"range", 1, 2, ["start", "end"], "array of numbers [start, end)"⟩
  | slice => ⟨"slice", 1, 2, ["start", "end"], "sub-array or substring"⟩
  | flatten => ⟨"flatten", 0, 0, [], "splice nested arrays one level"⟩
  | keys => ⟨"keys", 0, 0, [], "map keys as an array"⟩
  | values => ⟨"values", 0, 0, [], "map values as an array"⟩
  | iif =>
    ⟨"iif", 3, 3, ["condition", "then", "else"], "choose between two values"⟩
  | parseJson => ⟨"parseJson", 0, 0, [], "parse JSON text"⟩
  | toJson => ⟨"toJson", 0, 0, [], "render as JSON text"⟩
  | isMatch => ⟨"isMatch", 1, 1, ["pattern"], "regular expression test"⟩
  | regexReplace =>
    ⟨"regexReplace", 2, 2, ["pattern", "with"], "regular expression replace"⟩
  | sideOutput => ⟨"sideOutput", 0, 1, ["label"], "emit the stream to the host"⟩
  | getFiles => ⟨"getFiles", 0, 0, [], "files in the current folder"⟩
  | loadFile =>
    ⟨"loadFile", 1, 1, ["name"], "contents of a file in the current folder"⟩

/-- **The catalogue**, in the order in which it is listed. -/
def all : List Builtin :=
  [split, join, concat, replace, piece, «at», length, contains, startsWith,
    endsWith, trim, trimStart, trimEnd, toUpper, toLower, toText, modulo,
    tryParseNum, range, slice, flatten,
    keys, values, iif, parseJson, toJson, isMatch, regexReplace, sideOutput,
    getFiles, loadFile]

/-- The name of a function. -/
def name (b : Builtin) : String :=
  b.spec.name

/-- **The function of a name.** -/
def named? (name : String) : Option Builtin :=
  all.find? fun b => b.name == name

/-- Every function is found under its name. -/
theorem named?_name (b : Builtin) : named? b.name = some b := by
  cases b <;> decide

/-- Whether a function asks something of the host. -/
def needsHost : Builtin → Bool
  | sideOutput | getFiles | loadFile => true
  | _ => false

/-- How a function is called, with a mark on the parameters that may be left
out. -/
def signature (b : Builtin) : String :=
  let s := b.spec
  let params := s.params.take s.least ++ (s.params.drop s.least).map (· ++ "?")
  s.name ++ "(" ++ String.intercalate ", " params ++ ")"

end Builtin

/-- **Checks the number of arguments** of a call. -/
def checkArity (name : String) (least most given : Nat) :
    Except RunError Unit :=
  if given < least ∨ most < given then .error (.arity name least most given)
      else .ok ()

end StreamScript
