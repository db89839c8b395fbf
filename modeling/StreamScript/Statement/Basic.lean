import StreamScript.Expr.Basic

/-!
# Statements and programs

Every line of a script is one statement, blank lines and comments included, so
that a line number finds its statement and a run can name the line it has
reached. A statement is what the line says together with where it stands: its
number, its indentation as written, and the depth that the indentation amounts
to (`Placed`).

What a line can say comes in two layers. A *step* is what a run can execute: an
action, nothing at all, or the memory of a line that made no sense. A function
definition is a name, parameters and a block of steps. It stands only in the
script itself, never inside another function, and the types say so: a body
holds steps, a program holds items.

The functions of a program, the names it stores and its first error are not
kept beside the statements. They are read off them.
-/

namespace StreamScript

/-- **A scope**, `pre :: keyword :: post`. -/
structure ScopeForm where
  kind : ScopeKind
  /-- What yields the value to go through; the stream if it is missing. -/
  pre : Option Expr := none
  /-- What is made of the folded value once the block has ended. -/
  post : Option Expr := none
deriving Inhabited

/-- The last part of a chain. -/
inductive ChainEnd where
  | expr (e : Expr)
  | scope (s : ScopeForm)

/-- **What a run can execute.** -/
inductive Action where
  /-- Ends the run. -/
  | exit
  /-- Replaces the stream. -/
  | eval (e : Expr)
  /-- Stores a local and leaves the stream alone. -/
  | store (name : String) (e : Expr)
  /-- Opens a scope whose value becomes the stream. -/
  | scope (s : ScopeForm)
  /-- Opens a scope whose value is stored. -/
  | storeScope (name : String) (s : ScopeForm)
  /-- `head >> middle >> … >> last`, each on what the one before it leaves. -/
  | chain (head : Expr) (middle : List Expr) (last : ChainEnd)

namespace Action

/-- **The scope an action opens**, with the local that receives its value. -/
def opened? : Action → Option (ScopeForm × Option String)
  | .scope s => some (s, none)
  | .storeScope name s => some (s, some name)
  | .chain _ _ (.scope s) => some (s, none)
  | _ => none

/-- The local that an action stores. -/
def stored? : Action → Option String
  | .store name _ => some name
  | .storeScope name _ => some name
  | _ => none

end Action

/-- The first line of a function definition. -/
structure Header where
  name : String
  params : List String
deriving DecidableEq, Repr, Inhabited

/-- **What a single line can say**: an action, or the beginning of a
function. -/
inductive LineForm where
  | action (a : Action)
  | function (h : Header)

/-- **What a line has become.** -/
inductive Step where
  /-- A blank line, a comment, or a line that belongs to a function. -/
  | blank
  | act (a : Action)
  /-- A line that fits no form. -/
  | invalid (e : ParseError)

namespace Step

/-- The scope a step opens. -/
def opened? : Step → Option (ScopeForm × Option String)
  | .act a => a.opened?
  | _ => none

/-- The local a step stores. -/
def stored? : Step → Option String
  | .act a => a.stored?
  | _ => none

/-- The error a step remembers. -/
def error? : Step → Option ParseError
  | .invalid e => some e
  | _ => none

/-- Whether a run passes over the step. -/
def isBlank : Step → Bool
  | .blank => true
  | _ => false

end Step

/-- **Something and where it stands.** -/
structure Placed (α : Type) where
  content : α
  /-- The number of blanks the line begins with. -/
  tabDepth : Nat
  /-- How many scopes the line stands in. -/
  depth : Nat
  /-- The number of the line, counted from 1. -/
  line : Nat

/-- The same place with another content. -/
def Placed.map {α β : Type} (f : α → β) (p : Placed α) : Placed β :=
  ⟨f p.content, p.tabDepth, p.depth, p.line⟩

/-- **A function with its body.** -/
structure FunctionDef where
  name : String
  params : List String
  body : List (Placed Step)

/-- What a line of the script itself has become. -/
inductive Item where
  | step (s : Step)
  | function (d : FunctionDef)

namespace Item

/-- The item as a step; the definition of a function does nothing. -/
def toStep : Item → Step
  | .step s => s
  | .function _ => .blank

/-- The function an item defines. -/
def function? : Item → Option FunctionDef
  | .step _ => none
  | .function d => some d

/-- The scope an item opens. -/
def opened? (i : Item) : Option (ScopeForm × Option String) :=
  i.toStep.opened?

/-- Whether nothing stands on the line: neither a step nor a function. -/
def isEmptyLine : Item → Bool
  | .step s => s.isBlank
  | .function _ => false

/-- The steps that an item brings, those of a function's body among them. -/
def allSteps : Placed Item → List (Placed Step)
  | ⟨.step s, tab, depth, line⟩ => [⟨s, tab, depth, line⟩]
  | ⟨.function d, _, _, _⟩ => d.body

end Item

/-- **A script that has been read.** -/
structure Program where
  statements : List (Placed Item)

namespace Program

/-- What a run executes. -/
def steps (p : Program) : List (Placed Step) :=
  p.statements.map (Placed.map Item.toStep)

/-- The steps of the program and of the bodies of its functions, in the order of
their lines. -/
def allSteps (p : Program) : List (Placed Step) :=
  p.statements.flatMap Item.allSteps

/-- The functions, in the order of their definitions. -/
def functions (p : Program) : List FunctionDef :=
  p.statements.filterMap fun s => s.content.function?

/-- **The function of a name**: of several definitions the last one counts. -/
def function? (p : Program) (name : String) : Option FunctionDef :=
  p.functions.reverse.find? fun d => d.name == name

/-- **The first line that fits no form**, wherever it stands. -/
def diagnostic (p : Program) : Option ParseError :=
  p.allSteps.findSome? fun s => s.content.error?

/-- The names stored anywhere in the program, in the order of their lines. -/
def storedNames (p : Program) : List String :=
  p.allSteps.filterMap fun s => s.content.stored?

end Program

end StreamScript
