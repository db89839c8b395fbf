import StreamScript.Layout

/-!
# How the lines of a script stand

Reading a script places its lines one by one, with the lines above reduced to a
`Layout`. This module says what comes of it, for a whole list of lines at once:
`LaidOut` repeats what the reader does with the layout and nothing else of it,
so that a script and the body of a function fit the same description
(`laidOut_readItems`, `laidOut_readBody`).

The depth of a line counts the lines met on the way back, each indented less
than the one before. `shallowerAbove` keeps these lines themselves. They form
chains that end alike: the chain from a smaller indentation is a tail of the
chain from a larger one (`shallowerAbove_suffix`).

Two things are kept for later. What a run sees of the depths is `Nested`: a
line is never deeper than the line before it makes room for. And the lines are
numbered in their order (`pairwise_line_of_ofScript`).
-/

namespace StreamScript

/-! ## Shallower lines

The depth of a line is the length of a chain: from the line up to the nearest
one that is indented less, from there to the nearest that is indented less than
that, and so on. It does not matter what the lines between say. So the chain
depends on the indentation and the lines above only. -/

/-- **The lines that a depth counts**: the nearest that is indented less, from
there the nearest that is indented less again, and so on. The lines are given
from the nearest to the farthest. -/
def shallowerAbove {α : Type} (threshold : Nat) : List (Placed α) →
    List (Placed α)
  | [] => []
  | x :: above =>
    if x.tabDepth < threshold then x :: shallowerAbove x.tabDepth above
    else shallowerAbove threshold above

section ShallowerAbove

variable {α : Type}

/-- There are as many of them as the depth says. -/
theorem length_shallowerAbove (threshold : Nat) (above : List (Placed α)) :
    (shallowerAbove threshold above).length
      = depthAmong threshold (above.map Placed.tabDepth) := by
  induction above generalizing threshold with
  | nil => rfl
  | cons x above ih =>
    rw [shallowerAbove, List.map_cons, depthAmong]
    split
    · rw [List.length_cons, ih]
    · exact ih threshold

/-- **Chains end alike**: from a smaller indentation there are fewer lines to
be met, and they are the last ones. Whatever is met from the smaller one would
be met from the larger one too, at the latest where both have come to it. -/
theorem shallowerAbove_suffix {s t : Nat} (h : s ≤ t)
    (above : List (Placed α)) :
    shallowerAbove s above <:+ shallowerAbove t above := by
  induction above generalizing s t with
  | nil => exact List.suffix_refl []
  | cons x above ih =>
    unfold shallowerAbove
    -- Once the smaller indentation has met a line, both chains go on from
    -- there.
    by_cases hs : x.tabDepth < s
    · simp only [if_pos hs, if_pos (Nat.lt_of_lt_of_le hs h), List.suffix_refl]
    · rw [if_neg hs]
      split
      · exact (ih (Nat.le_of_not_lt hs)).trans (List.suffix_cons x _)
      · exact ih h

end ShallowerAbove

/-! ## Laid-out lines

A layout is all that a reader keeps of the lines above: their indentations and
the number of scopes that are open. Each line is placed by it, and adds to it.
The description repeats this for lines that have been placed already, so it can
be asked of any list of lines. -/

/-- **Lines that stand as a layout has it.** Every line that says something is
as deep as its indentation amounts to, but no deeper than there are scopes
open; if that is less, the line is an error. -/
def LaidOut (layout : Layout) : List (Placed Item) → Prop
  | [] => True
  | x :: rest =>
    if x.content.isEmptyLine then LaidOut layout rest
    else
      x.depth = min (layout.depthOf x.tabDepth) layout.openScopes ∧
      (layout.openScopes < layout.depthOf x.tabDepth →
        x.content.toStep.error?.isSome) ∧
      LaidOut (layout.below x x.content.opened?.isSome) rest

namespace LaidOut

variable {layout : Layout} {x : Placed Item} {l : List (Placed Item)}

/-- An empty line adds nothing. -/
theorem cons_of_isEmptyLine (hx : x.content.isEmptyLine = true) :
    LaidOut layout (x :: l) ↔ LaidOut layout l := by
  rw [LaidOut, if_pos hx]

/-- Any other line is placed, and is above the next ones. -/
theorem cons_iff (hx : x.content.isEmptyLine = false) :
    LaidOut layout (x :: l) ↔
      x.depth = min (layout.depthOf x.tabDepth) layout.openScopes ∧
      (layout.openScopes < layout.depthOf x.tabDepth →
        x.content.toStep.error?.isSome) ∧
      LaidOut (layout.below x x.content.opened?.isSome) l := by
  rw [LaidOut, if_neg (by simp [hx])]

/-- Empty lines are of no matter. -/
theorem append_of_isEmptyLine {l' : List (Placed Item)}
    (hl : ∀ x ∈ l, x.content.isEmptyLine = true) :
    LaidOut layout (l ++ l') ↔ LaidOut layout l' := by
  induction l with
  | nil => rfl
  | cons x l ih =>
    rw [List.cons_append, cons_of_isEmptyLine (hl x List.mem_cons_self)]
    exact ih fun y hy => hl y (List.mem_cons_of_mem x hy)

end LaidOut

/-- A line that is too deep is an error. -/
theorem Layout.content_place_of_lt {layout : Layout} {lexed : LexLine}
    (line : Nat) (h : layout.openScopes < layout.depthOf lexed.tabDepth) :
    (layout.place line lexed).content = .error .indentation :=
  if_pos h

/-- A line that has been read is not empty. -/
theorem isBlank_stepOf (line : Nat) (content : Except GrammarError LineForm) :
    (stepOf line content).isBlank = false := by
  rcases content with _ | _ | _ <;> rfl

/-- A line as the reader places it is laid out. -/
theorem laidOut_place {layout : Layout} {l : NumberedLine}
    {rest : List (Placed Item)} {i : Item} (hi : i.isEmptyLine = false)
    (herr : (layout.place l.1 l.2).content = .error .indentation →
      i.toStep.error?.isSome)
    (hrest : LaidOut (layout.below (layout.place l.1 l.2) i.opened?.isSome) rest) :
    LaidOut layout ((layout.place l.1 l.2).map (fun _ => i) :: rest) :=
  (LaidOut.cons_iff hi).2
    ⟨rfl, fun h => herr (layout.content_place_of_lt l.1 h), hrest⟩

/-- **The body of a function is laid out.** The body of a function begins a
layout of its own, with no line above and no scope open, so nothing is asked of
the lines around it; the induction needs any other layout as well. -/
theorem laidOut_readBody (layout : Layout) (lines : List NumberedLine) :
    LaidOut layout ((readBody layout lines).map (Placed.map .step)) := by
  induction lines generalizing layout with
  | nil => trivial
  | cons l rest ih =>
    unfold readBody
    split
    · exact (LaidOut.cons_of_isEmptyLine rfl).2 (ih layout)
    · refine laidOut_place
        (i := .step (stepOf l.1 (layout.place l.1 l.2).content))
        (isBlank_stepOf l.1 _) (fun h => ?_) (ih _)
      rw [h]
      rfl

/-- **A script is laid out**, the lines of its functions taken as empty. To the
lines behind a function its body has to look like nothing at all: the steps of
a body stand in a list of their own, and the lines they stood on count as
blank. -/
theorem laidOut_readItems (layout : Layout) (lines : List NumberedLine) :
    LaidOut layout (readItems layout lines) := by
  fun_induction readItems layout lines with
  | case1 => trivial
  | case2 layout l rest hl ih => exact (LaidOut.cons_of_isEmptyLine rfl).2 ih
  | case3 layout l rest hl p header hp body function ih =>
    rw [List.cons_append]
    -- The lines of the body are empty to the script, which goes on behind them.
    refine laidOut_place (i := .function function) rfl (fun h => ?_) ?_
    · exact absurd (hp.symm.trans h) (by simp)
    · refine (LaidOut.append_of_isEmptyLine ?_).2 ih
      intro x hx
      obtain ⟨_, _, rfl⟩ := List.mem_map.1 hx
      rfl
  | case4 layout l rest hl p hcontent p' ih =>
    refine laidOut_place (i := .step (stepOf l.1 p.content))
      (isBlank_stepOf l.1 _) (fun h => ?_) ih
    rw [h]
    rfl

/-- The body of a function has been read on its own. -/
theorem exists_body_of_mem_readItems {layout : Layout}
    {lines : List NumberedLine} {x : Placed Item}
    (hx : x ∈ readItems layout lines) {d : FunctionDef}
    (hd : x.content = .function d) : ∃ body, d.body = readBody {} body := by
  fun_induction readItems layout lines with
  | case1 => cases hx
  | case2 layout l rest hl ih =>
    obtain rfl | hx := List.mem_cons.1 hx
    · cases hd
    · exact ih hx
  | case3 layout l rest hl p header hp body function ih =>
    obtain hx | hx := List.mem_append.1 hx
    · obtain rfl | hx := List.mem_cons.1 hx
      · have hfunction : function = d := Item.function.inj hd
        exact ⟨body, hfunction ▸ rfl⟩
      · obtain ⟨_, _, rfl⟩ := List.mem_map.1 hx
        cases hd
    · exact ih hx
  | case4 layout l rest hl p hcontent p' ih =>
    obtain rfl | hx := List.mem_cons.1 hx
    · cases hd
    · exact ih hx

/-! ## What a run sees of it

A run does not see indentations. Of the depths it needs to know one thing: that
a line is never deeper than there are scopes open when it is taken. This
follows from the layout, since a line that is too deep is made less deep when
it is read. -/

/-- **Lines that are never deeper than there is room for**: a line makes room
for lines as deep as itself, and if it opens a scope for lines one deeper. This
is all that the moves of a run need to know of indentation. The arena has a
layer for every scope that is open, and a line may only ask for one that is
there. -/
def Nested (room : Nat) : List (Placed Step) → Prop
  | [] => True
  | x :: rest =>
    if x.content.isBlank then Nested room rest
    else x.depth ≤ room ∧
      Nested (x.depth + if x.content.opened?.isSome then 1 else 0) rest

/-- More room is room enough. -/
theorem Nested.mono {room room' : Nat} {l : List (Placed Step)}
    (h : Nested room l) (hroom : room ≤ room') : Nested room' l := by
  induction l with
  | nil => trivial
  | cons x l ih =>
    unfold Nested at h ⊢
    split at h <;> rename_i hx
    · rw [if_pos hx]
      exact ih h
    · rw [if_neg hx]
      exact ⟨Nat.le_trans h.1 hroom, h.2⟩

/-- The lines before others are nested. -/
theorem Nested.of_append {room : Nat} {l l' : List (Placed Step)}
    (h : Nested room (l ++ l')) :
    Nested room l := by
  induction l generalizing room with
  | nil => trivial
  | cons x l ih =>
    rw [List.cons_append] at h
    unfold Nested at h ⊢
    split
    · next hx =>
      rw [if_pos hx] at h
      exact ih h
    · next hx =>
      rw [if_neg hx] at h
      exact ⟨h.1, ih h.2⟩

/-- The lines behind others are nested, with room for the first of them. -/
theorem Nested.behind {room room' : Nat} {l l' : List (Placed Step)}
    {x : Placed Step} (h : Nested room (l ++ x :: l'))
    (hx : x.content.isBlank = false) (hdepth : x.depth ≤ room') :
    Nested room' (x :: l') := by
  induction l generalizing room with
  | nil =>
    rw [List.nil_append] at h
    unfold Nested at h ⊢
    rw [if_neg (by simp [hx])] at h ⊢
    exact ⟨hdepth, h.2⟩
  | cons y l ih =>
    rw [List.cons_append] at h
    unfold Nested at h
    split at h
    · exact ih h
    · exact ih h.2

/-- **Laid-out lines are nested**, with room for the scopes that are open. A
function among them may make the layout count fewer. The number of open scopes
that a layout counts is never more than a run has, and that is the direction
which is needed. -/
theorem LaidOut.nested {layout : Layout} {l : List (Placed Item)}
    (h : LaidOut layout l) :
    Nested layout.openScopes (l.map (Placed.map Item.toStep)) := by
  induction l generalizing layout with
  | nil => trivial
  | cons x l ih =>
    obtain ⟨content, tabDepth, depth, line⟩ := x
    rcases content with (_ | a | e) | d
    · exact ih ((cons_of_isEmptyLine rfl).1 h)
    · obtain ⟨hdepth, -, hl⟩ := (cons_iff rfl).1 h
      exact ⟨hdepth ▸ Nat.min_le_right _ _, ih hl⟩
    · obtain ⟨hdepth, -, hl⟩ := (cons_iff rfl).1 h
      exact ⟨hdepth ▸ Nat.min_le_right _ _, ih hl⟩
    · obtain ⟨hdepth, -, hl⟩ := (cons_iff rfl).1 h
      -- A run passes over the function, and the layout counts no more scopes
      -- behind it.
      have hroom : depth ≤ layout.openScopes :=
        Nat.le_trans (Nat.le_of_eq hdepth) (Nat.min_le_right _ _)
      exact (ih hl).mono hroom

/-! ## Numbers of lines

Lines are numbered from 1, in their order, when a script is split. Reading
keeps the numbers, also for the lines of functions. -/

/-- Every line of a script is there once, with its number. -/
theorem map_line_readItems (layout : Layout) (lines : List NumberedLine) :
    (readItems layout lines).map Placed.line = lines.map Prod.fst := by
  fun_induction readItems layout lines with
  | case1 => rfl
  | case2 layout l rest hl ih => exact congrArg (l.1 :: ·) ih
  | case3 layout l rest hl p header hp body function ih =>
    have hbody : (body.map (emptyLine (Item.step .blank))).map Placed.line
        = body.map Prod.fst := by
      rw [List.map_map]
      rfl
    rw [List.cons_append, List.map_cons, List.map_append, ih, hbody,
      ← List.map_append, List.takeWhile_append_dropWhile]
    rfl
  | case4 layout l rest hl p hcontent p' ih => exact congrArg (l.1 :: ·) ih

/-- What a function keeps of every element it keeps of a list of them. -/
theorem map_eq_of_mapM_eq_ok {ε α β γ : Type} {f : α → Except ε β} {g : β → γ}
    {k : α → γ} (hf : ∀ a b, f a = .ok b → g b = k a) {l : List α} {bs : List β}
    (h : l.mapM f = .ok bs) :
    bs.map g = l.map k := by
  induction l generalizing bs with
  | nil =>
    cases h
    rfl
  | cons a l ih =>
    rw [List.mapM_cons] at h
    cases ha : f a with
    | error e =>
      rw [ha] at h
      cases h
    | ok b =>
      cases hl : l.mapM f with
      | error e =>
        rw [ha, hl] at h
        cases h
      | ok rest =>
        rw [ha, hl] at h
        cases h
        rw [List.map_cons, List.map_cons, hf a b ha, ih hl]

/-- The lines of a script are numbered from 1. -/
theorem map_fst_lexScript {script : String} {lines : List NumberedLine}
    (h : lexScript script = .ok lines) :
    lines.map Prod.fst = List.range' 1 (Text.lines script.toList).length := by
  rw [← List.zipIdx_map_snd]
  refine map_eq_of_mapM_eq_ok (fun (text, line) b hb => ?_) h
  dsimp only at hb
  cases hlex : lexLine (String.ofList text) line with
  | error e =>
    rw [hlex] at hb
    cases hb
  | ok lexed =>
    rw [hlex] at hb
    cases hb
    rfl

/-- **A script that has been read**: its lines have been split, and placed.
Nothing can go wrong in the second step: a line that fits no form is placed
like any other, as a step that fails when it is executed. -/
theorem Program.ofScript_eq_ok_iff {script : String} {p : Program} :
    Program.ofScript script = .ok p ↔
      ∃ lines, lexScript script = .ok lines ∧ p = ⟨readItems {} lines⟩ := by
  unfold Program.ofScript
  cases lexScript script with
  | error e => exact iff_of_false nofun nofun
  | ok lines =>
    constructor
    · rintro ⟨⟩
      exact ⟨lines, rfl, rfl⟩
    · rintro ⟨_, ⟨⟩, rfl⟩
      rfl

/-- **The lines of a script stand in the order of their numbers.** They are
numbered from 1 on when the script is split, and placing them neither moves nor
drops one; the lines inside a function are left as empty lines in their places.
-/
theorem pairwise_line_of_ofScript {script : String} {p : Program}
    (h : Program.ofScript script = .ok p) :
    p.statements.Pairwise (fun x y => x.line < y.line) := by
  obtain ⟨lines, hlex, rfl⟩ := Program.ofScript_eq_ok_iff.1 h
  rw [← List.pairwise_map, map_line_readItems, map_fst_lexScript hlex]
  exact List.pairwise_lt_range'

/-! ## A script with a function in a block

The script is read once, step by step, and is used to show the general
statements at work. It has all that makes reading difficult: two scopes, a
function between them, and a line that is deeper than the function makes room
for. -/

/-- Keeps those elements of every element that a function leaves as they are.
The function is defined in the block it is called from, above a line that is
deeper than the definition makes it look. -/
def keepScript : String :=
  "map\n  function keep()\n    exit\n  filter\n   keep"

/-- The same script, read. -/
def keepProgram : Program :=
  ⟨[⟨.step (.act (.scope { kind := .map })), 0, 0, 1⟩,
    ⟨.function ⟨"keep", [], [⟨.act .exit, 4, 0, 3⟩]⟩, 2, 1, 2⟩,
    ⟨.step .blank, 4, 0, 3⟩,
    ⟨.step (.act (.scope { kind := .filter })), 2, 1, 4⟩,
    ⟨.step (.act (.eval (.name "keep"))), 3, 2, 5⟩]⟩

/-- What a line says is read where it is not too deep. -/
theorem Layout.content_place {layout : Layout} {lexed : LexLine}
    {form : LineForm} (line : Nat)
    (h : layout.depthOf lexed.tabDepth ≤ layout.openScopes)
    (hform : parseStatement lexed.tokens = .ok form) :
    (layout.place line lexed).content = .ok form :=
  (if_neg (Nat.not_lt_of_le h)).trans hform

/-- A line that is an action, in front of others. -/
theorem readItems_cons_action {layout : Layout} {l : NumberedLine}
    {rest : List NumberedLine} {a : Action} (hl : l.2.isBlank = false)
    (h : (layout.place l.1 l.2).content = .ok (.action a)) :
    readItems layout (l :: rest)
      = ((layout.place l.1 l.2).map fun _ => .step (.act a)) ::
      readItems (layout.below (layout.place l.1 l.2) a.opened?.isSome)
      rest := by
  rw [readItems, if_neg (by simp [hl])]
  simp only [h]
  rfl

/-- A header of a function, in front of the lines that it takes. -/
theorem readItems_cons_function {layout : Layout} {l : NumberedLine}
    {rest : List NumberedLine} {header : Header} (hl : l.2.isBlank = false)
    (h : (layout.place l.1 l.2).content = .ok (.function header)) :
    readItems layout (l :: rest) =
      ((layout.place l.1 l.2).map fun _ =>
        .function ⟨header.name, header.params,
          readBody {} (rest.takeWhile (belongsTo l.2.tabDepth))⟩) ::
      (rest.takeWhile (belongsTo l.2.tabDepth)).map
      (emptyLine (.step .blank))
        ++ readItems (layout.below (layout.place l.1 l.2) false)
        (rest.dropWhile (belongsTo l.2.tabDepth)) := by
  rw [readItems, if_neg (by simp [hl])]
  simp only [h]

theorem ofScript_keepScript :
    Program.ofScript keepScript = .ok keepProgram := by
  have hkeep : parseExpr ["keep"] = .ok (.name "keep") := by
    rw [parseExpr, parseAlternation, parseOperand]
    rfl
  have hline :
      parseStatement ["keep"] = .ok (.action (.eval (.name "keep"))) := by
    show (parseExpr ["keep"]).map (fun e => LineForm.action (.eval e)) = _
    rw [hkeep]
    rfl
  have h₅ : readItems ⟨[2, 2, 0], 2⟩ [(5, ⟨3, ["keep"], "   keep"⟩)]
      = [⟨.step (.act (.eval (.name "keep"))), 3, 2, 5⟩] := by
    rw [readItems_cons_action rfl (Layout.content_place 5 (by decide) hline),
      readItems]
    rfl
  have h₄ : readItems ⟨[2, 0], 1⟩ [(4, ⟨2, ["filter"], "  filter"⟩),
      (5, ⟨3, ["keep"], "   keep"⟩)]
      = ⟨.step (.act (.scope { kind := .filter })), 2, 1, 4⟩ :: _ :=
    (readItems_cons_action rfl rfl).trans (congrArg (_ :: ·) h₅)
  have hread : readItems {} [(1, ⟨0, ["map"], "map"⟩),
      (2, ⟨2, ["function", "keep", "(", ")"], "  function keep()"⟩),
      (3, ⟨4, ["exit"], "    exit"⟩), (4, ⟨2, ["filter"], "  filter"⟩),
      (5, ⟨3, ["keep"], "   keep"⟩)] = keepProgram.statements := by
    have hheader : (Layout.place ⟨[0], 1⟩ 2 ⟨2, ["function", "keep", "(", ")"],
        "  function keep()"⟩).content = .ok (.function ⟨"keep", []⟩) := rfl
    refine (readItems_cons_action rfl rfl).trans (congrArg (_ :: ·) ?_)
    exact (readItems_cons_function rfl hheader).trans
      (congrArg ([_, _] ++ ·) h₄)
  have hlex : (lexScript keepScript).toOption = some
      [(1, ⟨0, ["map"], "map"⟩),
        (2, ⟨2, ["function", "keep", "(", ")"], "  function keep()"⟩),
        (3, ⟨4, ["exit"], "    exit"⟩), (4, ⟨2, ["filter"], "  filter"⟩),
        (5, ⟨3, ["keep"], "   keep"⟩)] := by
    decide +kernel
  cases h : lexScript keepScript with
  | error e =>
    rw [h] at hlex
    cases hlex
  | ok lines =>
    rw [h] at hlex
    obtain rfl := Option.some.inj hlex
    exact Program.ofScript_eq_ok_iff.2 ⟨_, h, congrArg Program.mk hread.symm⟩

end StreamScript
