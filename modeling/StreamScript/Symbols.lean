import StreamScript.Builtin.Catalogue
import StreamScript.Statement.Basic

/-!
# The list of symbols

An editor that completes names asks which there are: the keywords of the
language, the built-in functions, and what a program adds to them – its
functions and the names it stores, both in alphabetical order and without
repetitions.
-/

namespace StreamScript

/-- What a symbol is. -/
inductive SymbolKind where
  | keyword
  | builtin
  | function
  | stored
deriving DecidableEq, Repr

/-- The word for a kind of symbol. -/
def SymbolKind.name : SymbolKind → String
  | .keyword => "keyword"
  | .builtin => "builtin"
  | .function => "function"
  | .stored => "local"

/-- **A symbol.** -/
structure Symbol where
  name : String
  kind : SymbolKind
  /-- How it is written. -/
  signature : String
  summary : String
deriving DecidableEq, Repr

namespace Symbol

/-- A keyword. -/
def keyword (name signature summary : String) : Symbol :=
  { name, kind := .keyword, signature, summary }

/-- The keyword of a scope. -/
def scope (kind : ScopeKind) (summary : String) : Symbol :=
  keyword kind.keyword ("[pre ::] " ++ kind.keyword ++ " [:: post]") summary

/-- **The keywords.** -/
def keywords : List Symbol :=
  [scope .map "run the block per element, collect the results",
    scope .filter "keep elements whose block yields true",
    scope .sortBy "order elements by their block result",
    scope .sumBy "add up the block results",
    scope .pivot "group elements by their block result",
    scope .do "run the block once on the value",
    keyword "function" "function name(params)"
    "define a function from the indented block",
    keyword "exit" "exit" "stop the run",
    keyword "stream" "stream" "the current value",
    keyword "index" "index" "position within the enclosing fan-out",
    keyword "true" "true" "boolean literal",
    keyword "false" "false" "boolean literal"]

/-- The keywords are the words that the grammar keeps for itself. -/
theorem map_name_keywords : keywords.map Symbol.name = reservedWords := by
  decide

/-- A built-in function. -/
def ofBuiltin (b : Builtin) : Symbol :=
  { name := b.name, kind := .builtin, signature := b.signature,
    summary := b.spec.summary }

/-- A function of a program. -/
def ofFunction (d : FunctionDef) : Symbol :=
  { name := d.name
    kind := .function
    signature := d.name ++ "(" ++ String.intercalate ", " d.params ++ ")"
    summary := "user-defined function" }

/-- A name that a program stores. -/
def ofStored (name : String) : Symbol :=
  { name, kind := .stored, signature := name, summary := "stored local" }

/-- **The symbols of the language.** -/
def language : List Symbol :=
  keywords ++ Builtin.all.map ofBuiltin

end Symbol

/-- Names in alphabetical order, each of them once. -/
def inOrder (names : List String) : List String :=
  names.eraseDups.mergeSort fun a b => !(b < a)

namespace Program

/-- The functions that calls can find, in the order of their names. -/
def functionsInOrder (p : Program) : List FunctionDef :=
  (inOrder (p.functions.map FunctionDef.name)).filterMap p.function?

/-- The names that a program stores, in order. -/
def storedInOrder (p : Program) : List String :=
  inOrder p.storedNames

/-- **What a program adds** to the symbols of the language. -/
def ownSymbols (p : Program) : List Symbol :=
  p.functionsInOrder.map .ofFunction ++ p.storedInOrder.map .ofStored

/-- **The symbols in sight** of a program. -/
def symbols (p : Program) : List Symbol :=
  Symbol.language ++ p.ownSymbols

end Program

end StreamScript
