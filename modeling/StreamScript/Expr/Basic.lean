import StreamScript.Lexer

/-!
# Expressions

An expression is built from operands and binary operators. The operators fall
into five levels, the lowest of which binds tightest:

* 1 – `:` and `.`, the method call and the member
* 2 – `*` and `/`
* 3 – `+` and `-`
* 4 – `=`, `!=` and the four relations
* 5 – `&` and `|`

Brackets written in the source are kept as `group`, so that an expression still
shows how it was written.
-/

namespace StreamScript

/-- The signs before an operand. -/
inductive UnaryOp where
  | negate
  | not
deriving DecidableEq, Repr

/-- **The binary operators.** -/
inductive BinaryOp where
  | method
  | member
  | mul
  | div
  | add
  | sub
  | eq
  | ne
  | lt
  | gt
  | le
  | ge
  | and
  | or
deriving DecidableEq, Repr

namespace BinaryOp

/-- How an operator is written. -/
def symbol : BinaryOp → String
  | method => ":"
  | member => "."
  | mul => "*"
  | div => "/"
  | add => "+"
  | sub => "-"
  | eq => "="
  | ne => "!="
  | lt => "<"
  | gt => ">"
  | le => "<="
  | ge => ">="
  | and => "&"
  | or => "|"

/-- The level of an operator; lower levels bind tighter. -/
def level : BinaryOp → Nat
  | method | member => 1
  | mul | div => 2
  | add | sub => 3
  | eq | ne | lt | gt | le | ge => 4
  | and | or => 5

/-- All operators. -/
def all : List BinaryOp :=
  [method, member, mul, div, add, sub, eq, ne, lt, gt, le, ge, and, or]

/-- The operator that a token is, if it is one. -/
def ofToken? (t : Token) : Option BinaryOp :=
  all.find? fun op => op.symbol == t

/-- An operator reads back from its symbol. -/
theorem ofToken?_symbol (op : BinaryOp) : ofToken? op.symbol = some op := by
  cases op <;> decide

/-- What reads as an operator is its symbol. -/
theorem symbol_of_ofToken? {t : Token} {op : BinaryOp}
    (h : ofToken? t = some op) :
    op.symbol = t := by
  simpa using List.find?_some h

end BinaryOp

/-- **An expression.** -/
inductive Expr where
  /-- A variable, or a function called without arguments. -/
  | name (n : String)
  | number (x : Float)
  | text (s : String)
  | truth (b : Bool)
  /-- The value the line works on. -/
  | stream
  /-- The position among the elements of the enclosing scope. -/
  | index
  | unary (op : UnaryOp) (operand : Expr)
  | binary (left : Expr) (op : BinaryOp) (right : Expr)
  | call (function : String) (arguments : List Expr)
  | array (items : List Expr)
  | group (inner : Expr)
deriving Inhabited

/-- The words that the grammar keeps for itself. -/
def reservedWords : List String :=
  ["map", "filter", "sortBy", "sumBy", "pivot", "do", "function", "exit",
    "stream", "index", "true", "false"]

/-- **The words that may name a variable or a function.** -/
def isIdentifier (t : Token) : Bool :=
  isWordToken t && !reservedWords.contains t

end StreamScript
