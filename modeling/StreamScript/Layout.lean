import StreamScript.Statement.Grammar
import StreamScript.Text.Cut

/-!
# Indentation

The block of a scope is what is indented below it. How far is of no matter;
only the order of indentations counts. A line is as deep as there are strictly
smaller indentations to be met on the way back through the lines above it, each
smaller than the one met before (`depthAmong`).

Depth is checked against the scopes that are open. A line may not be deeper
than those: it is then noted as an error and taken to stand in the innermost
open scope. A line that opens a scope makes room for one more level, any other
line closes what is deeper than itself.

A function takes the lines below it that are blank or indented further than its
first line. They are read on their own, with no scope open and no line above
them, and leave empty lines behind where they stood.
-/

namespace StreamScript

/-- How many strictly smaller indentations are met on the way back, each smaller
than the ones before. -/
def depthAmong (threshold : Nat) : List Nat → Nat
  | [] => 0
  | tab :: above =>
    if tab < threshold then depthAmong tab above + 1
        else depthAmong threshold above

/-- **What the lines above mean for the next one.** -/
structure Layout where
  /-- The indentations of the lines above that say something, the nearest
  first. -/
  above : List Nat := []
  /-- How many scopes are open. -/
  openScopes : Nat := 0

namespace Layout

/-- The depth that an indentation amounts to. -/
def depthOf (layout : Layout) (tabDepth : Nat) : Nat :=
  depthAmong tabDepth layout.above

/-- **Reads a line in its place.** One that is too deep is an error. -/
def place (layout : Layout) (line : Nat) (lexed : LexLine) :
    Placed (Except GrammarError LineForm) :=
  let depth := layout.depthOf lexed.tabDepth
  { content :=
      if layout.openScopes < depth then .error .indentation
          else parseStatement lexed.tokens
    tabDepth := lexed.tabDepth
    depth := min depth layout.openScopes
    line }

/-- The layout below a line. -/
def below {α : Type} (layout : Layout) (p : Placed α) (opens : Bool) : Layout :=
  { above := p.tabDepth :: layout.above
    openScopes := p.depth + if opens then 1 else 0 }

end Layout

/-- A line with its number. -/
abbrev NumberedLine : Type := Nat × LexLine

/-- The step that a line of a function's body has become. -/
def stepOf (line : Nat) : Except GrammarError LineForm → Step
  | .ok (.action a) => .act a
  | .ok (.function _) => .invalid ⟨line, .nestedFunction⟩
  | .error e => .invalid ⟨line, e⟩

/-- An empty line. -/
def emptyLine {α : Type} (blank : α) (l : NumberedLine) : Placed α :=
  { content := blank, tabDepth := l.2.tabDepth, depth := 0, line := l.1 }

/-- **Reads the body of a function.** -/
def readBody (layout : Layout) : List NumberedLine → List (Placed Step)
  | [] => []
  | l :: rest =>
    if l.2.isBlank then emptyLine .blank l :: readBody layout rest
    else
      let p := (layout.place l.1 l.2).map (stepOf l.1)
      p :: readBody (layout.below p p.content.opened?.isSome) rest

/-- Whether a line below the first line of a function belongs to it. -/
def belongsTo (tabDepth : Nat) (l : NumberedLine) : Bool :=
  l.2.isBlank || tabDepth < l.2.tabDepth

/-- **Reads the lines of a script.** -/
def readItems (layout : Layout) (lines : List NumberedLine) :
    List (Placed Item) :=
  match lines with
  | [] => []
  | l :: rest =>
    if l.2.isBlank then emptyLine (.step .blank) l :: readItems layout rest
    else
      let p := layout.place l.1 l.2
      match p.content with
      | .ok (.function header) =>
        let body := rest.takeWhile (belongsTo l.2.tabDepth)
        let function : FunctionDef :=
          ⟨header.name, header.params, readBody {} body⟩
        p.map (fun _ => .function function)
          :: body.map (emptyLine (.step .blank))
          ++ readItems (layout.below p false)
          (rest.dropWhile (belongsTo l.2.tabDepth))
      | content =>
        let p := p.map fun _ => stepOf l.1 content
        p.map .step :: readItems (layout.below p p.content.opened?.isSome) rest
termination_by lines.length
decreasing_by
  all_goals simp only [List.length_cons]
  · omega
  · have :=
      (List.dropWhile_sublist (belongsTo l.2.tabDepth) (l := rest)).length_le
    omega
  · omega

/-- The lines of a script in tokens, or the first that has none. -/
def lexScript (script : String) : Except LexError (List NumberedLine) :=
  ((Text.lines script.toList).zipIdx 1).mapM fun (text, line) =>
    (lexLine (String.ofList text) line).map fun lexed => (line, lexed)

/-- **Reads a script.** Only a line that does not split into tokens keeps it
from being a program. -/
def Program.ofScript (script : String) : Except LexError Program :=
  (lexScript script).map fun lines => ⟨readItems {} lines⟩

end StreamScript
