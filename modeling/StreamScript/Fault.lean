import StreamScript.Value.Kind
import StreamScript.ScopeKind

/-!
# What can go wrong

Three things can go wrong with a script, at three different times.

* A line may not split into tokens (`LexError`). Then there is no program.
* A line may fit no form of the grammar (`ParseError`). The program keeps it,
  and a run fails only if it gets there.
* A line may fail when it is executed (`RunError`). The run ends, and what
  earlier lines made of the input remains.

Errors are causes; their wording is a function of the cause.
-/

namespace StreamScript

/-- **A line that does not split into tokens.** -/
inductive LexError where
  /-- Nothing the lexer knows begins at `rest`. -/
  | unmatched (line : Nat) (rest : String)
  /-- A quotation mark without its partner. -/
  | unterminatedString (line : Nat)
deriving DecidableEq, Repr

namespace LexError

/-- The line at fault. -/
def line : LexError → Nat
  | .unmatched line _ => line
  | .unterminatedString line => line

/-- The wording of the error. -/
def message : LexError → String
  | .unmatched line rest =>
    "line " ++ toString line ++ ": cannot tokenize `" ++ rest ++ "`"
  | .unterminatedString line =>
    "line " ++ toString line ++ ": unterminated string literal"

end LexError

/-- **Why some tokens fit no form of the grammar.** -/
inductive GrammarError where
  /-- There are no tokens where an expression should be. -/
  | expectedExpression
  /-- No operand and no operator begins with this token. -/
  | unexpectedToken (t : String)
  /-- The expression ends behind an operator. -/
  | operandAfter (t : String)
  /-- The expression ends where an operand should be. -/
  | expectedOperand
  /-- A number token that does not read as a number. -/
  | invalidNumber (t : String)
  /-- A string token that does not read as a string. -/
  | invalidString (t : String)
  /-- No form of statement matches the line. -/
  | noForm
  /-- The parameters of a function are not names separated by commas. -/
  | badParameters (name : String)
  /-- What should be a scope is none. -/
  | expectedScope
  /-- Nothing stands between two arrows of a chain. -/
  | emptySegment
  /-- A scope in the middle of a chain. -/
  | scopeNotLast
  /-- The line is indented, but no scope is open above it. -/
  | indentation
  /-- A function is defined inside another one. -/
  | nestedFunction
deriving DecidableEq, Repr

/-- The wording of the reason. -/
def GrammarError.message : GrammarError → String
  | .expectedExpression => "expected an expression"
  | .unexpectedToken t => "unexpected token `" ++ t ++ "`"
  | .operandAfter t => "expected an operand after `" ++ t ++ "`"
  | .expectedOperand => "expected an operand"
  | .invalidNumber t => "invalid number `" ++ t ++ "`"
  | .invalidString t => "invalid string `" ++ t ++ "`"
  | .noForm => "no statement form matches this line"
  | .badParameters name => "invalid parameter list for `" ++ name ++ "`"
  | .expectedScope => "expected a scope form"
  | .emptySegment => "empty chain segment"
  | .scopeNotLast => "only the last chain segment may open a scope"
  | .indentation => "unexpected indentation"
  | .nestedFunction => "function definitions cannot be nested"

/-- **A line that fits no form of the grammar**, and why. -/
structure ParseError where
  line : Nat
  reason : GrammarError
deriving DecidableEq, Repr

/-- The wording of the error. -/
def ParseError.message (e : ParseError) : String :=
  "line " ++ toString e.line ++ ": " ++ e.reason.message

/-- **A statement that fails when it is executed.** -/
inductive RunError where
  /-- A value of one kind cannot stand for one of another. -/
  | cast (source target : Kind)
  /-- An operator is not defined for two kinds. -/
  | operator (symbol : String) (left right : Kind)
  /-- A sign is not defined for a kind. -/
  | unary (symbol : String) (operand : Kind)
  /-- A function was given too few or too many arguments. -/
  | arity (name : String) (least most given : Nat)
  /-- A name that is neither a variable nor a function without arguments. -/
  | unknownName (name : String)
  /-- A value of this kind is no key of a map. -/
  | notAKey (kind : Kind)
  /-- A map has no such key. -/
  | missingKey (shown : String)
  /-- A call of a function that does not exist. -/
  | unknownFunction (name : String)
  /-- A scope was opened on a value without elements. -/
  | notIterable (scope : ScopeKind) (kind : Kind)
  /-- A position outside an array or a text. -/
  | index (index : Int) (length : Nat)
  /-- A built-in function refuses its target or its arguments. -/
  | builtin (function reason : String)
  /-- The surroundings do not provide what a function needs. -/
  | host (reason : String)
  /-- A text that is no JSON. What is wrong with it, and where, is not kept. -/
  | json
  /-- A text that is no regular expression. What is wrong with it is not
  kept. -/
  | regex
  /-- The run has reached a line that fits no form. -/
  | invalid (e : ParseError)
  /-- Calls of functions nest too deep. -/
  | recursion (name : String) (limit : Nat)
  /-- The state of the run does not hold together. -/
  | task (reason : String)
deriving DecidableEq, Repr

namespace RunError

/-- What a scope asks of its value. -/
def expected : ScopeKind → String
  | .map => "an array or map"
  | _ => "an array"

/-- The wording of the error. -/
def message : RunError → String
  | .cast source target =>
    "cannot cast " ++ source.name ++ " to " ++ target.name
  | .operator symbol left right =>
    "operator `" ++ symbol ++ "` is not defined for " ++ left.name ++ " and "
      ++ right.name
  | .unary symbol operand =>
    "operator `" ++ symbol ++ "` is not defined for " ++ operand.name
  | .arity name least most given =>
    name ++ " expects " ++ toString least ++ "..=" ++ toString most
      ++ " arguments, got "
      ++ toString given
  | .unknownName name => "unknown identifier `" ++ name ++ "`"
  | .notAKey kind => kind.name ++ " cannot be used as a map key"
  | .missingKey shown => "no such key `" ++ shown ++ "`"
  | .unknownFunction name => "unknown function `" ++ name ++ "`"
  | .notIterable scope kind =>
    "`" ++ scope.keyword ++ "` needs " ++ expected scope ++ ", got "
      ++ kind.name
  | .index i length =>
    "index " ++ toString i ++ " out of range for length " ++ toString length
  | .builtin function reason => function ++ ": " ++ reason
  | .host reason => "host capability unavailable: " ++ reason
  | .json => "invalid JSON"
  | .regex => "invalid regex"
  | .invalid e => e.message
  | .recursion name limit =>
    "`" ++ name ++ "` exceeded the call depth limit of " ++ toString limit
  | .task reason => "branch task failed: " ++ reason

/-- The wording of an error that ends a run at the given line. -/
def report (line : Nat) : RunError → String
  | .invalid e => e.message
  | e => "line " ++ toString line ++ ": " ++ e.message

end RunError

end StreamScript
