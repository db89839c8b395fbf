import StreamScript.Statement.Basic
import StreamScript.Expr.Grammar

/-!
# Reading statements

A line is read by the table `statementRules`: the first pattern that takes the
whole line decides, and there is no way back. That is why the forms with a
scope stand before those with any expression, and why the last rule takes
everything.

Whether tokens are a scope is asked twice. `isScopeForm` asks for the shape
alone – a keyword among at most three parts between `::` – and guards the rules
of the first table, so that `X << map` is not taken for the storing of an
expression. `parseScope` then reads the parts through a table of its own.

Chains are cut at the `>>` outside brackets. Only the last segment may be a
scope.
-/

namespace StreamScript

open Pattern (Entry Rules Captures Validator Verdict upTo splitTopLevel)

/-! ## Scopes -/

/-- Whether a part is a single scope keyword. -/
def isKeyword : List Token → Bool
  | [t] => ScopeKind.keywords.contains t
  | _ => false

/-- **Whether tokens have the shape of a scope.** A `>>` outside brackets makes
them a chain instead. -/
def isScopeForm (tokens : List Token) : Bool :=
  if (splitTopLevel ">>" tokens).length > 1 then false
  else
    match splitTopLevel "::" tokens with
    | [a] => isKeyword a
    | [a, b] => isKeyword a || isKeyword b
    | [_, b, _] => isKeyword b
    | _ => false

/-- Accepts the rest of a line if it has the shape of a scope. -/
def scopeShape : Validator := fun run next =>
  if next.isSome then .undecided
  else if isScopeForm run then .accept
  else .reject

/-- **The four forms of a scope.** Which expressions it has is which keys the
match recorded, so the table needs no results of its own. -/
def scopeRules : Rules Unit :=
  let pre := (Entry.sequence (upTo "::")).named "pre"
  let keyword := (Entry.oneOf ScopeKind.keywords).named "kw"
  let post := Entry.rest.named "post"
  [([pre, .token "::", keyword, .token "::", post], ()),
   ([pre, .token "::", keyword], ()),
   ([keyword, .token "::", post], ()),
   ([keyword], ())]

/-- The expression recorded under a key, if there is one. -/
def Pattern.Captures.expr? (caps : Captures) (key : String) :
    Except GrammarError (Option Expr) :=
  match caps.get? key with
  | some tokens => (parseExpr tokens).map some
  | none => .ok none

/-- **Reads a scope.** The answer is `none` if the tokens are no scope at all,
and an error if they are one around an expression that makes no sense. -/
def parseScope (tokens : List Token) :
    Option (Except GrammarError ScopeForm) := do
  let (_, caps) ← scopeRules.firstFull tokens 0
  let kind ← (caps.token? "kw").bind ScopeKind.ofKeyword?
  return do
    let pre ← caps.expr? "pre"
    let post ← caps.expr? "post"
    return { kind, pre, post }

/-- Reads tokens that have to be a scope. -/
def requireScope (tokens : List Token) : Except GrammarError ScopeForm :=
  (parseScope tokens).getD (.error .expectedScope)

/-! ## Lines -/

/-- **The forms of a line.** -/
inductive StatementForm where
  | exit
  | function
  | storeScope
  | store
  | scope
  | chain
  | expr
deriving DecidableEq, Repr

/-- **The table of lines**, in the order in which they are tried. -/
def statementRules : Rules StatementForm :=
  let name := (Entry.satisfying isIdentifier).named "name"
  let store := Entry.oneOf ["<<", ":="]
  let scope := (Entry.sequence scopeShape).named "scope"
  [([.token "exit"], .exit),
   ([.token "function", name, .token "(",
      ((Entry.sequence (upTo ")")).named "params").orNothing, .token ")"],
      .function),
   ([name, store, scope], .storeScope),
   ([name, store, Entry.rest.named "expr"], .store),
   ([scope], .scope),
   ([(Entry.sequence (upTo ">>")).named "head", .token ">>",
     Entry.rest.named "tail"], .chain),
   ([Entry.rest.named "expr"], .expr)]

/-- The parameter that the tokens between two commas are. -/
def paramOf? : List Token → Option String
  | [t] => if isIdentifier t then some t else none
  | _ => none

/-- Reads the parameters of a function. -/
def parseParams (name : String) (tokens : List Token) :
    Except GrammarError (List String) :=
  match (splitTopLevel "," tokens).mapM paramOf? with
  | some params => .ok params
  | none => .error (.badParameters name)

/-- Reads the segments of a chain behind its head: expressions, and at the end
an expression or a scope. -/
def parseSegments : List (List Token) →
    Except GrammarError (List Expr × ChainEnd)
  | [] => .error .emptySegment
  | segment :: rest =>
    if segment.isEmpty then .error .emptySegment
    else
      match parseScope segment, rest with
      | some _, _ :: _ => .error .scopeNotLast
      | some scope, [] => do
        let s ← scope
        return ([], .scope s)
      | none, [] => do
        let e ← parseExpr segment
        return ([], .expr e)
      | none, _ :: _ => do
        let e ← parseExpr segment
        let (middle, last) ← parseSegments rest
        return (e :: middle, last)

/-- **Reads a line** that is not blank. -/
def parseStatement (tokens : List Token) : Except GrammarError LineForm :=
  match statementRules.firstFull tokens 0 with
  | none => .error .noForm
  | some (form, caps) =>
    let name := (caps.token? "name").getD ""
    let slot (key : String) := (caps.get? key).getD []
    match form with
    | .exit => .ok (.action .exit)
    | .function => do
      let params ←
        match caps.get? "params" with
        | some tokens => parseParams name tokens
        | none => .ok []
      return .function { name, params }
    | .storeScope => do
      let s ← requireScope (slot "scope")
      return .action (.storeScope name s)
    | .store => do
      let e ← parseExpr (slot "expr")
      return .action (.store name e)
    | .scope => do
      let s ← requireScope (slot "scope")
      return .action (.scope s)
    | .chain => do
      let head ← parseExpr (slot "head")
      let (middle, last) ← parseSegments (splitTopLevel ">>" (slot "tail"))
      return .action (.chain head middle last)
    | .expr => do
      let e ← parseExpr (slot "expr")
      return .action (.eval e)

end StreamScript
