import StreamScript.Bindings
import StreamScript.Proofs.Relayout

/-!
# Reading line by line

`readItems` looks ahead: when it comes to the first line of a function it has
all lines of the body before it. A reader that is fed one line after the other
cannot do that. It records the lines of a function while they come, with a
definition without a body in its place and empty lines behind it, and reads
them on their own when the function is at its end. On the way it keeps notes:
the first error, the names that are stored, and the functions by their names.

`Reading` is such a reader. It comes to the same statements
(`Reading.yields_ofLines`), and its notes are what a program says of itself
when it is asked, `diagnostic`, `storedNames` and `function?`. Notes are taken
in the body of a function when the function is at its end, and put to those of
the script; what makes this right is that the earlier of two errors may be
found in any grouping (`ParseError.earlier_assoc`), and that the lines of a
body lie together.
-/

namespace StreamScript

/-- **The earlier of two errors**, the first if both are on one line. This is
how the error to be shown is kept up to date while the lines are read, in
whatever order the reader comes upon them. -/
def ParseError.earlier : Option ParseError → Option ParseError →
    Option ParseError
  | none, e => e
  | some e, none => some e
  | some e, some e' => if e.line ≤ e'.line then some e else some e'

/-- A function whose lines are being recorded. -/
structure Recording where
  /-- Where its definition stands among the statements. -/
  slot : Nat
  /-- The definition, without a body. -/
  definition : Placed FunctionDef
  lines : List NumberedLine := []

/-- **What a reader has made of the lines so far.** Besides the statements it
notes what a program is asked for again and again: its functions, the names it
stores, and the first of its errors. -/
structure Reading where
  statements : List (Placed Item) := []
  openScopes : Nat := 0
  recording : Option Recording := none
  functions : Bindings FunctionDef := []
  locals : List String := []
  diagnostic : Option ParseError := none

namespace Reading

/-- What the statements mean for the next line. -/
def layout (r : Reading) : Layout :=
  { above := ((r.statements.filter fun x => !x.content.isEmptyLine).map
      Placed.tabDepth).reverse
    openScopes := r.openScopes }

/-- An empty line, or one that is recorded. -/
def skip (r : Reading) (l : NumberedLine) : Reading :=
  { r with statements := r.statements ++ [emptyLine (.step .blank) l] }

/-- A step, and what is to be noted of it. -/
def addStep (r : Reading) (x : Placed Step) : Reading :=
  { r with
    statements := r.statements ++ [x.map .step]
    openScopes := x.depth + if x.content.opened?.isSome then 1 else 0
    locals := r.locals ++ x.content.stored?.toList
    diagnostic := ParseError.earlier r.diagnostic x.content.error? }

/-- The definition of a function, whose lines are to be recorded. -/
def addDefinition (r : Reading) (x : Placed FunctionDef) : Reading :=
  { r with
    statements := r.statements ++ [x.map .function]
    openScopes := x.depth
    recording := some { slot := r.statements.length, definition := x } }

/-- **Reads a line** that is not recorded. In the body of a function no other
is defined. A blank line is kept as an empty statement, so that the numbers of
the lines stay what they are. -/
def read (inFunction : Bool) (r : Reading) (l : NumberedLine) : Reading :=
  if l.2.isBlank then r.skip l
  else
    let p := r.layout.place l.1 l.2
    match p.content with
    | .ok (.function header) =>
      if inFunction then r.addStep (p.map (stepOf l.1))
      else r.addDefinition (p.map fun _ => ⟨header.name, header.params, []⟩)
    | _ => r.addStep (p.map (stepOf l.1))

/-- Puts a function in its place, with what has been noted of its lines. -/
def define (r : Reading) (slot : Nat) (x : Placed FunctionDef)
    (body : Reading) : Reading :=
  { statements := r.statements.set slot (x.map .function)
    openScopes := x.depth
    functions := r.functions.set x.content.name x.content
    locals := r.locals ++ body.locals
    diagnostic := ParseError.earlier r.diagnostic body.diagnostic }

/-- Ends the function that is recorded: its lines are read on their own. -/
def finish (r : Reading) : Reading :=
  match r.recording with
  | none => r
  | some c =>
    let body := c.lines.foldl (read true) {}
    let steps := body.statements.map (Placed.map Item.toStep)
    r.define c.slot (c.definition.map fun d => { d with body := steps }) body

/-- Records a line. -/
def record (r : Reading) (c : Recording) (l : NumberedLine) : Reading :=
  { r.skip l with recording := some { c with lines := c.lines ++ [l] } }

/-- **Takes the next line**: it belongs to the function that is recorded, or
ends it. Only if the line ends the function is the body read, and then the line
itself is read as one behind it. -/
def push (r : Reading) (l : NumberedLine) : Reading :=
  match r.recording with
  | none => r.read false l
  | some c =>
    if belongsTo c.definition.tabDepth l then r.record c l
        else r.finish.read false l

/-- **Reads lines one after the other.** The end of the lines ends a function
like a line that is not indented. -/
def ofLines (lines : List NumberedLine) : Reading :=
  (lines.foldl push {}).finish

end Reading

/-! ## Errors as they are noted

A reader that goes line by line notes one error at most, the earliest so far.
The program looks for the first in a list of all. Both come to the same when
the errors are noted in the order of their lines, in whatever groups they are
noted. -/

theorem ParseError.earlier_none (e : Option ParseError) :
    earlier e none = e := by
  cases e <;> rfl

/-- Errors may be grouped in any way. -/
theorem ParseError.earlier_assoc (e e' e'' : Option ParseError) :
    earlier (earlier e e') e'' = earlier e (earlier e' e'') := by
  cases e with
  | none => rfl
  | some e =>
    cases e' with
    | none => rfl
    | some e' =>
      cases e'' with
      | none => rw [earlier_none, earlier_none]
      | some e'' =>
        by_cases h : e.line ≤ e'.line <;> by_cases h' : e'.line ≤ e''.line
        · simp only [earlier, if_pos h, if_pos h', if_pos (Nat.le_trans h h')]
        · simp only [earlier, if_pos h, if_neg h']
        · simp only [earlier, if_neg h, if_pos h']
        · have h'' : ¬ e.line ≤ e''.line := by omega
          simp only [earlier, if_neg h, if_neg h', if_neg h'']

/-- The first of some errors, as they are noted one after the other. -/
def ParseError.earliest (errors : List ParseError) : Option ParseError :=
  errors.foldl (fun e e' => earlier e (some e')) none

theorem ParseError.foldl_earlier (e : Option ParseError)
    (errors : List ParseError) :
    errors.foldl (fun e e' => earlier e (some e')) e
    = earlier e (earliest errors) := by
  unfold earliest
  induction errors generalizing e with
  | nil => exact (earlier_none e).symm
  | cons e' errors ih =>
    rw [List.foldl_cons, ih, List.foldl_cons, ih (earlier none (some e')),
      ← earlier_assoc, ← earlier_assoc, earlier_none]

theorem ParseError.earliest_append (errors errors' : List ParseError) :
    earliest (errors ++ errors')
      = earlier (earliest errors) (earliest errors') := by
  rw [earliest, List.foldl_append, foldl_earlier]
  rfl

/-- **The earliest error is the first one** if the errors come in the order of
their lines. So the reader that keeps the earliest and the definition that
takes the first agree, once the order is known. -/
theorem ParseError.earliest_eq_head? {errors : List ParseError}
    (h : errors.Pairwise fun e e' => e.line ≤ e'.line) :
    earliest errors = errors.head? := by
  induction errors with
  | nil => rfl
  | cons e errors ih =>
    obtain ⟨hle, hrest⟩ := List.pairwise_cons.1 h
    have hcons : earliest (e :: errors) = earlier (some e) (earliest errors) :=
      earliest_append [e] errors
    rw [hcons, ih hrest]
    cases errors with
    | nil => rfl
    | cons e' errors => exact if_pos (hle e' List.mem_cons_self)

namespace Reading

/-! ## What a reader adds

What a reader has come to is compared with items that are read at once.
`Yields` says that the reader has come on by so many items, with the notes that
they call for. It holds of nothing, of single lines, and of one stretch after
another, so it will hold of a script. -/

/-- The errors of some items. -/
def errorsOf (xs : List (Placed Item)) : List ParseError :=
  (xs.flatMap Item.allSteps).filterMap fun s => s.content.error?

/-- **A reader that has come on by some items**: they are behind its
statements, and the notes it has taken are of them. Nothing is said about how
the reader got there. So the items may be read line by line or as a whole, and
what is to be shown is that both yield the same. -/
structure Yields (r q : Reading) (xs : List (Placed Item)) : Prop where
  statements : q.statements = r.statements ++ xs
  functions : q.functions
    = (xs.filterMap fun x => x.content.function?).foldl
    (fun b d => b.set d.name d) r.functions
  locals : q.locals
    = r.locals ++ (xs.flatMap Item.allSteps).filterMap fun s =>
    s.content.stored?
  diagnostic : q.diagnostic
    = ParseError.earlier r.diagnostic (ParseError.earliest (errorsOf xs))

namespace Yields

variable {r q t : Reading} {xs ys : List (Placed Item)}

theorem refl (r : Reading) : Yields r r [] where
  statements := (List.append_nil _).symm
  functions := rfl
  locals := (List.append_nil _).symm
  diagnostic := (ParseError.earlier_none _).symm

theorem trans (h : Yields r q xs) (h' : Yields q t ys) :
    Yields r t (xs ++ ys) where
  statements := by rw [h'.statements, h.statements, List.append_assoc]
  functions := by
    rw [h'.functions, h.functions, List.filterMap_append, List.foldl_append]
  locals := by
    rw [h'.locals, h.locals, List.flatMap_append, List.filterMap_append,
      List.append_assoc]
  diagnostic := by
    rw [h'.diagnostic, h.diagnostic, ParseError.earlier_assoc,
      ← ParseError.earliest_append]
    unfold errorsOf
    rw [List.flatMap_append, List.filterMap_append]

end Yields

/-- An empty line leaves an empty step, and no notes. -/
theorem yields_skip (r : Reading) (l : NumberedLine) :
    Yields r (r.skip l) [emptyLine (.step .blank) l] where
  statements := rfl
  functions := rfl
  locals := (List.append_nil _).symm
  diagnostic := (ParseError.earlier_none _).symm

/-- A line that is a step leaves the step, and is noted. -/
theorem yields_addStep (r : Reading) (x : Placed Step) :
    Yields r (r.addStep x) [x.map .step] where
  statements := rfl
  functions := rfl
  locals := by
    rcases hs : x.content.stored? with _ | name <;>
      simp [addStep, Item.allSteps, Placed.map, hs]
  diagnostic := by
    rcases he : x.content.error? with _ | e <;>
      simp [addStep, errorsOf, Item.allSteps, Placed.map, he,
        ParseError.earliest, ParseError.earlier]

end Reading

/-- A function over the lines of its body. -/
def FunctionDef.over (d : FunctionDef) (lines : List NumberedLine) :
    FunctionDef :=
  { d with body := readBody {} lines }

namespace Reading

/-! ## Reading the lines of a body

In the body of a function no other function is defined, so each line is a step.
The layout that a line is placed in depends on the lines above, and a reader
finds these in its statements. -/

section Read

variable {r q : Reading} {l : NumberedLine}

theorem read_blank (inFunction : Bool) (hl : l.2.isBlank = true) :
    r.read inFunction l = r.skip l := by
  rw [read, if_pos hl]

/-- A line that is no definition is a step. -/
theorem read_step (inFunction : Bool) (hl : l.2.isBlank = false)
    (h : inFunction = false → ∀ header,
      (r.layout.place l.1 l.2).content ≠ .ok (.function header)) :
    r.read inFunction l
    = r.addStep ((r.layout.place l.1 l.2).map (stepOf l.1)) := by
  rw [read, if_neg (by simp [hl])]
  dsimp only
  split
  · next header hp =>
    cases inFunction with
    | true => rfl
    | false => exact absurd hp (h rfl header)
  · rfl

theorem read_definition {header : Header} (hl : l.2.isBlank = false)
    (h : (r.layout.place l.1 l.2).content = .ok (.function header)) :
    r.read false l = r.addDefinition
      ((r.layout.place l.1 l.2).map fun _ =>
        ⟨header.name, header.params, []⟩) := by
  rw [read, if_neg (by simp [hl])]
  simp only [h]
  rfl

/-- An empty line changes nothing for the next. -/
theorem layout_skip (r : Reading) (l : NumberedLine) :
    (r.skip l).layout = r.layout := by
  unfold layout skip
  rw [List.filter_append, List.filter_cons_of_neg
    (by simp [emptyLine, Item.isEmptyLine, Step.isBlank]),
    List.filter_nil, List.append_nil]

/-- A step is the line above the next one, and opens a scope if it does. -/
theorem layout_addStep (r : Reading) {x : Placed Step}
    (hx : x.content.isBlank = false) :
    (r.addStep x).layout = r.layout.below x x.content.opened?.isSome := by
  unfold layout addStep Layout.below
  rw [List.filter_append,
    List.filter_cons_of_pos (by simp [Placed.map, Item.isEmptyLine, hx]),
    List.filter_nil, List.map_append, List.reverse_append]
  rfl

/-- **Reading the lines of a body** one after the other is reading the body. No
function can begin in a body: a header there is an error, and is kept as the
step that it is. -/
theorem yields_readBody (r : Reading) (lines : List NumberedLine) :
    Yields r (lines.foldl (read true) r)
      ((readBody r.layout lines).map (Placed.map .step)) := by
  induction lines generalizing r with
  | nil => exact .refl r
  | cons l rest ih =>
    cases hl : l.2.isBlank with
    | true =>
      rw [List.foldl_cons, read_blank true hl, readBody, if_pos hl,
        List.map_cons, ← r.layout_skip l]
      exact (r.yields_skip l).trans (ih _)
    | false =>
      have hx := isBlank_stepOf l.1 (r.layout.place l.1 l.2).content
      rw [List.foldl_cons, read_step true hl (fun h => by cases h),
        readBody_cons hl, List.map_cons]
      have hrest := ih (r.addStep ((r.layout.place l.1 l.2).map (stepOf l.1)))
      rw [r.layout_addStep hx] at hrest
      exact (r.yields_addStep _).trans hrest

end Read

/-! ## Recording a function

While a function is recorded its lines leave empty lines behind, and when it
ends they are read as a body by a reader of their own. What this reader has
noted is put to the notes of the first. -/

section Record

variable {r q : Reading} {c : Recording} {lines : List NumberedLine}

/-- **Lines that are recorded** leave empty lines behind. They are only put
aside. By `h` all of them belong to the function, so that none ends it. -/
theorem foldl_push_record (hq : q.recording = some c)
    (h : ∀ l ∈ lines, belongsTo c.definition.tabDepth l = true) :
    lines.foldl push q =
      { q with
        statements := q.statements ++ lines.map (emptyLine (.step .blank))
        recording := some { c with lines := c.lines ++ lines } } := by
  induction lines generalizing q c with
  | nil =>
    rw [List.foldl_nil, List.map_nil, List.append_nil, List.append_nil, ← hq]
  | cons l rest ih =>
    obtain ⟨hl, hrest⟩ := List.forall_mem_cons.1 h
    have hpush : q.push l = q.record c l := by
      rw [push, hq]
      exact if_pos hl
    rw [List.foldl_cons, hpush,
      ih (c := { c with lines := c.lines ++ [l] }) rfl hrest]
    simp only [record, skip, List.append_assoc, List.map_cons, List.cons_append,
      List.nil_append]

/-- The steps of a body, as they stand in a list of items. -/
theorem flatMap_allSteps_step (l : List (Placed Step)) :
    (l.map (Placed.map Item.step)).flatMap Item.allSteps = l := by
  rw [List.flatMap_map]
  exact List.flatMap_singleton' l

theorem flatMap_allSteps_empty (lines : List NumberedLine) :
    (lines.map (emptyLine (Item.step .blank))).flatMap Item.allSteps
      = lines.map (emptyLine .blank) := by
  rw [List.flatMap_map]
  exact List.map_eq_flatMap.symm

theorem statements_body (lines : List NumberedLine) :
    (lines.foldl (read true) {}).statements.map (Placed.map Item.toStep)
      = readBody {} lines := by
  rw [(yields_readBody {} lines).statements, List.nil_append, List.map_map]
  exact List.map_id _

theorem locals_body (lines : List NumberedLine) :
    (lines.foldl (read true) {}).locals
      = (readBody {} lines).filterMap fun s => s.content.stored? := by
  rw [(yields_readBody {} lines).locals, flatMap_allSteps_step]
  rfl

theorem diagnostic_body (lines : List NumberedLine) :
    (lines.foldl (read true) {}).diagnostic
      = ParseError.earliest
      ((readBody {} lines).filterMap fun s => s.content.error?) := by
  rw [(yields_readBody {} lines).diagnostic, errorsOf, flatMap_allSteps_step]
  rfl

variable {x : Placed FunctionDef}

/-- **A function whose lines have been recorded** is read when it ends. Its
definition stands where it was put at first, with a body now, and behind it the
empty lines. -/
theorem finish_recorded (r : Reading)
    (h : ∀ l ∈ lines, belongsTo x.tabDepth l = true) :
    (lines.foldl push (r.addDefinition x)).finish =
      { statements := r.statements ++ (x.map fun d => .function (d.over lines)) ::
          lines.map (emptyLine (.step .blank))
        openScopes := x.depth
        functions := r.functions.set x.content.name (x.content.over lines)
        locals := r.locals ++
          (readBody {} lines).filterMap fun s => s.content.stored?
        diagnostic := ParseError.earlier r.diagnostic
          (ParseError.earliest
            ((readBody {} lines).filterMap fun s => s.content.error?)) } := by
  -- The definition stands in front of the empty lines that its lines have left
  -- behind.
  have hset : ∀ y : Placed Item, ((r.statements ++ [x.map Item.function])
      ++ lines.map (emptyLine (Item.step .blank))).set r.statements.length y
        = r.statements ++ y :: lines.map (emptyLine (Item.step .blank)) := by
    intro y
    rw [List.append_assoc, List.set_append_right _ _ (Nat.le_refl _),
      Nat.sub_self]
    rfl
  rw [foldl_push_record
    (c := { slot := r.statements.length, definition := x }) rfl h]
  unfold finish
  simp only [addDefinition, List.nil_append, statements_body, define,
    locals_body, diagnostic_body, hset]
  rfl

/-- So a function is one item and the empty lines behind it, as it is when it
is read at once. -/
theorem yields_recorded (r : Reading)
    (h : ∀ l ∈ lines, belongsTo x.tabDepth l = true) :
    Yields r (lines.foldl push (r.addDefinition x)).finish
      ((x.map fun d => .function (d.over lines))
        :: lines.map (emptyLine (.step .blank))) := by
  have hsteps : ((x.map fun d => Item.function (d.over lines)) ::
      lines.map (emptyLine (.step .blank))).flatMap Item.allSteps
        = readBody {} lines ++ lines.map (emptyLine .blank) := by
    rw [List.flatMap_cons, flatMap_allSteps_empty]
    rfl
  have hnone : ∀ {β : Type} (f : Step → Option β), f .blank = none →
      (lines.map (emptyLine .blank)).filterMap (fun s => f s.content) = [] := by
    intro β f hf
    refine List.filterMap_eq_nil_iff.2 fun s hs => ?_
    obtain ⟨l, -, rfl⟩ := List.mem_map.1 hs
    exact hf
  rw [finish_recorded r h]
  refine ⟨rfl, ?_, ?_, ?_⟩
  · have hfunctions : (lines.map (emptyLine (Item.step .blank))).filterMap
        (fun y => y.content.function?) = [] := by
      refine List.filterMap_eq_nil_iff.2 fun y hy => ?_
      obtain ⟨l, -, rfl⟩ := List.mem_map.1 hy
      rfl
    have hcons :
        (((x.map fun d => Item.function (d.over lines)) ::
          lines.map (emptyLine (Item.step .blank))).filterMap fun y =>
            y.content.function?)
          = [x.content.over lines] :=
      congrArg (x.content.over lines :: ·) hfunctions
    rw [hcons]
    rfl
  · rw [hsteps, List.filterMap_append, hnone Step.stored? rfl, List.append_nil]
  · rw [errorsOf, hsteps, List.filterMap_append, hnone Step.error? rfl,
      List.append_nil]

theorem layout_recorded (r : Reading)
    (h : ∀ l ∈ lines, belongsTo x.tabDepth l = true) :
    (lines.foldl push (r.addDefinition x)).finish.layout
      = r.layout.below x false := by
  have hempty : (lines.map (emptyLine (Item.step .blank))).filter
      (fun y => !y.content.isEmptyLine) = [] := by
    refine List.filter_eq_nil_iff.2 fun y hy => ?_
    obtain ⟨l, -, rfl⟩ := List.mem_map.1 hy
    exact Bool.false_ne_true
  rw [finish_recorded r h]
  unfold layout Layout.below
  dsimp only
  rw [List.filter_append, List.filter_cons_of_pos rfl, hempty, List.map_append,
    List.reverse_append]
  rfl

/-- A line that does not belong to the function that is recorded ends it. -/
theorem foldl_push_finish (hq : q.recording = some c)
    (h : ∀ l ∈ lines.head?, belongsTo c.definition.tabDepth l = false) :
    (lines.foldl push q).finish = (lines.foldl push q.finish).finish := by
  have hfinish : q.finish.recording = none := by
    rw [finish, hq]
    rfl
  cases lines with
  | nil =>
    show q.finish = q.finish.finish
    rw [finish.eq_def q.finish, hfinish]
  | cons l rest =>
    have hl : belongsTo c.definition.tabDepth l = false := h l rfl
    have hpush : q.push l = q.finish.push l := by
      rw [push, hq, push, hfinish]
      exact if_neg (by simp [hl])
    rw [List.foldl_cons, List.foldl_cons, hpush]

end Record

/-! ## Reading a script

The reader that looks ahead and the one that does not are compared along the
recursion of the former. Where it cuts off the lines of a function, the latter
has been recording since the header and comes to the end of the function at the
same line. -/

/-- **Reading lines one after the other** is reading them all. The induction
follows `readItems`, which on a header takes all lines of the body at once.
Line by line these are recorded first (`foldl_push_record`) and read when the
function ends, and that comes to the same. -/
theorem yields_lines (layout : Layout) (lines : List NumberedLine) :
    ∀ r : Reading, r.recording = none → r.layout = layout →
      Yields r (lines.foldl push r).finish (readItems layout lines) := by
  fun_induction readItems layout lines with
  | case1 layout =>
    rintro r hr -
    have hfinish : r.finish = r := by rw [finish, hr]
    rw [List.foldl_nil, hfinish]
    exact .refl r
  | case2 layout l rest hl ih =>
    rintro r hr rfl
    have hpush : r.push l = r.skip l := by
      rw [push, hr]; exact read_blank false hl
    rw [List.foldl_cons, hpush]
    exact (r.yields_skip l).trans (ih _ hr (r.layout_skip l))
  | case3 layout l rest hl p header hp body function ih =>
    rintro r hr rfl
    have hblank : l.2.isBlank = false := Bool.eq_false_iff.2 hl
    let x : Placed FunctionDef :=
      p.map fun _ => ⟨header.name, header.params, []⟩
    have hpush : r.push l = r.addDefinition x := by
      rw [push, hr]
      exact read_definition hblank hp
    have hbody : ∀ m ∈ body, belongsTo x.tabDepth m = true :=
      List.all_eq_true.1 List.all_takeWhile
    have hrest : ∀ m ∈ (rest.dropWhile (belongsTo l.2.tabDepth)).head?,
        belongsTo x.tabDepth m = false := by
      intro m hm
      have hnot := List.head?_dropWhile_not (belongsTo l.2.tabDepth) rest
      rw [hm] at hnot
      exact hnot
    let q := body.foldl push (r.addDefinition x)
    have hq : q.recording = some
        { slot := r.statements.length, definition := x, lines := [] ++ body } := by
      rw [show q = _ from foldl_push_record (q := r.addDefinition x) rfl hbody]
    have hfinish : q.finish.recording = none := by
      rw [show q.finish = _ from finish_recorded r hbody]
    have hlines : (l :: rest).foldl push r
        = (rest.dropWhile (belongsTo l.2.tabDepth)).foldl push q := by
      rw [List.foldl_cons, hpush,
        ← List.takeWhile_append_dropWhile (p := belongsTo l.2.tabDepth)
        (l := rest), List.foldl_append, List.takeWhile_append_dropWhile]
    rw [hlines, foldl_push_finish hq hrest, List.cons_append]
    exact (yields_recorded r hbody).trans
      (ih _ hfinish (layout_recorded r hbody))
  | case4 layout l rest hl p hcontent p' ih =>
    rintro r hr rfl
    have hblank : l.2.isBlank = false := Bool.eq_false_iff.2 hl
    have hpush : r.push l = r.addStep (p.map (stepOf l.1)) := by
      rw [push, hr]
      exact read_step false hblank fun _ => hcontent
    have hstep : (p.map (stepOf l.1)).content.isBlank = false :=
      isBlank_stepOf _ _
    rw [List.foldl_cons, hpush]
    exact (r.yields_addStep _).trans (ih _ hr (r.layout_addStep hstep))

/-- **A reader that goes line by line** comes to the same statements. So a
program may be read in one pass, with nothing but the line at hand and what has
been noted. -/
theorem yields_ofLines (lines : List NumberedLine) :
    Yields {} (ofLines lines) (readItems {} lines) :=
  yields_lines {} lines {} rfl rfl

/-- Functions kept by their names are found by the last definition. -/
theorem get?_foldl_set (ds : List FunctionDef) (b : Bindings FunctionDef)
    (name : String) :
    (ds.foldl (fun b d => b.set d.name d) b).get? name
      = (ds.reverse.find? fun d => d.name == name).or (b.get? name) := by
  induction ds generalizing b with
  | nil => rfl
  | cons d ds ih =>
    rw [List.foldl_cons, ih, Bindings.get?_set, List.reverse_cons,
      List.find?_append, Option.or_assoc]
    congr 1
    by_cases h : name = d.name
    · rw [if_pos h, List.find?_cons_of_pos (by simp [h])]
      rfl
    · rw [if_neg h, List.find?_cons_of_neg (by simpa using Ne.symm h)]
      rfl

/-- **The functions it has noted** are those of the program. If a name is
defined more than once both take the last definition, the one because it
overwrites what it has noted, the other because it looks from the end. -/
theorem functions_ofLines (lines : List NumberedLine) (name : String) :
    (ofLines lines).functions.get? name
      = (Program.mk (readItems {} lines)).function? name := by
  rw [(yields_ofLines lines).functions, get?_foldl_set]
  exact Option.or_none

/-- **The names it has noted** are those that the program stores. They come in
the order of the lines and as often as they are stored. -/
theorem locals_ofLines (lines : List NumberedLine) :
    (ofLines lines).locals = (Program.mk (readItems {} lines)).storedNames :=
  (yields_ofLines lines).locals

/-- **The error it has noted** is that of the program, if errors come in the
order of their lines. The hypothesis is true of every script; it is proved
where the numbers of lines are looked at. -/
theorem diagnostic_ofLines {lines : List NumberedLine}
    (h : (errorsOf (readItems {} lines)).Pairwise fun e e' =>
      e.line ≤ e'.line) :
    (ofLines lines).diagnostic
    = (Program.mk (readItems {} lines)).diagnostic := by
  rw [(yields_ofLines lines).diagnostic, ParseError.earliest_eq_head? h]
  exact List.head?_filterMap

end Reading

end StreamScript
