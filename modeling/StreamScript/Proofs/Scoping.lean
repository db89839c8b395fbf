import Mathlib
import StreamScript.Proofs.Indentation
import StreamScript.Proofs.Moves
import StreamScript.Proofs.Reach

/-!
# The open scopes are those the indentation shows

Depth is decided twice. Reading a script counts shallower lines and keeps a
number of open scopes; executing it keeps a stack. The two are not kept in
step by anything: a function among the lines resets the number and leaves the
stack alone, a run passes over lines that the reader has counted, and a line
that is too deep is taken to be less deep than it is.

`Settled` is what holds between them all the same. There are at least as many
scopes on the stack as the reader counts, and whatever chain of shallower
lines is no longer than that count is found on the stack, from its end: each
line of the chain has opened the scope at its place. One line after the other
keeps it (`Settled.below`), so it holds wherever a run comes
(`settled_of_reaches`), and `Program.scopes_eq_shallowerAbove` reads it off once
the deeper scopes are closed.
-/

namespace StreamScript

/-! ## Lists of lines, and chains

A run executes several lists of lines: those of the script, and one for every
function. For each of them the lines above a line are looked at from the
nearest to the farthest, and the chain of those that are shallower is what the
indentation shows. An open scope remembers the line that opened it by its
number and its form. -/

/-- **The lists of lines that are executed**: the script's own, and the bodies
of its functions. Both are run by the same functions, so what is said of lines
and their scopes is said of all of them at once. -/
def Program.blocks (p : Program) : List (List (Placed Item)) :=
  p.statements :: p.functions.map fun d => d.body.map (Placed.map .step)

/-- What a run executes of a list of lines. -/
def stepsOf (l : List (Placed Item)) : List (Placed Step) :=
  l.map (Placed.map Item.toStep)

/-- The lines that say something, from the nearest to the farthest. -/
def linesAbove (l : List (Placed Item)) : List (Placed Item) :=
  (l.filter fun x => !x.content.isEmptyLine).reverse

/-- **An open scope and the line that has opened it.** The scope keeps the form
it was opened with, the name its value is to be stored under, and the number of
the line. By the number it is told apart from a scope of the same form that was
opened elsewhere. -/
def OpenScope.OpenedBy (s : OpenScope) (x : Placed Item) : Prop :=
  x.content.opened? = some (s.form, s.target) ∧ s.line = x.line

/-- **Scopes opened by lines of descending depth**, the last of them at depth
0. The scopes are listed from the innermost outwards, and so are the lines. The
depths then have to be all numbers from that of the innermost line down to 0,
without a gap. -/
def OpenedAlong (scopes : List OpenScope) (chain : List (Placed Item)) : Prop :=
  List.Forall₂ OpenScope.OpenedBy scopes chain ∧
    chain.map Placed.depth = (List.range chain.length).reverse

/-- A body is executed as it is. -/
theorem stepsOf_body (body : List (Placed Step)) :
    stepsOf (body.map (Placed.map .step)) = body := by
  unfold stepsOf
  rw [List.map_map]
  exact List.map_id body

/-- An empty line is not among the lines above. -/
theorem linesAbove_concat_of_isEmptyLine {x : Placed Item}
    (hx : x.content.isEmptyLine = true) (l : List (Placed Item)) :
    linesAbove (l ++ [x]) = linesAbove l := by
  unfold linesAbove
  rw [List.filter_append, List.filter_cons_of_neg (by simp [hx]),
    List.filter_nil, List.append_nil]

/-- Any other line is the nearest of them. -/
theorem linesAbove_concat {x : Placed Item} (hx : x.content.isEmptyLine = false)
    (l : List (Placed Item)) : linesAbove (l ++ [x]) = x :: linesAbove l := by
  unfold linesAbove
  rw [List.filter_append, List.filter_cons_of_pos (by simp [hx]),
    List.reverse_append]
  rfl

/-- A line that a run does not pass over is not empty. -/
theorem Item.isEmptyLine_eq_false {i : Item} (h : i.toStep.isBlank = false) :
    i.isEmptyLine = false := by
  cases i with
  | step s => exact h
  | function d => rfl

/-! ## What holds between the layout and the stack

The number of scopes that a reader counts may be smaller than the number on the
stack. Where a function stands among the lines, the reader goes back to the
depth of the function, and the scopes that were deeper are closed only when the
next line is taken. So the invariant says no more than that the stack reaches
as far as the reader counts, and that chains no longer than that are found at
its end. -/

/-- The last elements of a list are the same under any new ones. -/
theorem drop_append_drop {α : Type} (new : List α) {l : List α} {k d : Nat}
    (hk : k ≤ d) (hd : d ≤ l.length) :
    (new ++ l.drop (l.length - d)).drop
      ((new ++ l.drop (l.length - d)).length - k)
      = l.drop (l.length - k) := by
  rw [List.length_append, List.length_drop,
    show new.length + (l.length - (l.length - d)) - k = new.length + (d - k) by
    omega,
    List.drop_length_add_append, List.drop_drop,
    show l.length - d + (d - k) = l.length - k by omega]

/-- **The stack fits the layout** that the lines above have led to. Chains are
asked for only where none of these lines is an error. `chain` says it for every
threshold at once, as the layout may drop to any indentation on the next line.
-/
structure Settled (layout : Layout) (above : List (Placed Item))
    (scopes : List OpenScope) :
    Prop where
  above_eq : layout.above = above.map Placed.tabDepth
  room : layout.openScopes ≤ scopes.length
  chain : (∀ y ∈ above, y.content.toStep.error? = none) → ∀ threshold,
    (shallowerAbove threshold above).length ≤ layout.openScopes →
    OpenedAlong
      (scopes.drop (scopes.length - (shallowerAbove threshold above).length))
      (shallowerAbove threshold above)

namespace Settled

variable {layout : Layout} {above : List (Placed Item)}
    {scopes : List OpenScope}

/-- At the beginning there are no lines and no scopes. -/
theorem start : Settled {} [] [] where
  above_eq := rfl
  room := Nat.le_refl 0
  chain _ _ _ := ⟨.nil, rfl⟩

/-- The depth of an indentation is the length of its chain. -/
theorem depthOf_eq (h : Settled layout above scopes) (tabDepth : Nat) :
    layout.depthOf tabDepth = (shallowerAbove tabDepth above).length := by
  unfold Layout.depthOf
  rw [length_shallowerAbove, h.above_eq]

/-- A line that is no error stands where its indentation says. -/
theorem length_le (h : Settled layout above scopes) {x : Placed Item}
    (herr : layout.openScopes < layout.depthOf x.tabDepth →
      x.content.toStep.error?.isSome)
    (hx : x.content.toStep.error? = none) :
    (shallowerAbove x.tabDepth above).length ≤ layout.openScopes := by
  rw [← h.depthOf_eq]
  refine Nat.le_of_not_lt fun hlt => ?_
  have hsome := herr hlt
  rw [hx] at hsome
  cases hsome

/-- **One more line keeps the stack settled**, if that becomes the scopes that
the line stands in under some new ones: the one that the line opens, if it
opens one, and any if it does not. The chains below the line are looked up at
the end of the stack, which the line has not touched. -/
theorem below (h : Settled layout above scopes) {x : Placed Item} (opens : Bool)
    (new : List OpenScope)
    (hdepth : x.depth = min (layout.depthOf x.tabDepth) layout.openScopes)
    (herr : layout.openScopes < layout.depthOf x.tabDepth →
      x.content.toStep.error?.isSome)
    (hnew : opens = true → ∃ s : OpenScope, new = [s] ∧ s.OpenedBy x) :
    Settled (layout.below x opens) (x :: above)
      (new ++ scopes.drop (scopes.length - x.depth)) where
  above_eq := congrArg (x.tabDepth :: ·) h.above_eq
  room := by
    have hroom := h.room
    show x.depth + (if opens then 1 else 0) ≤ _
    rw [List.length_append, List.length_drop]
    cases opens with
    | false =>
      rw [if_neg Bool.false_ne_true]
      omega
    | true =>
      obtain ⟨s, rfl, _⟩ := hnew rfl
      rw [if_pos rfl, List.length_singleton]
      omega
  chain := by
    intro hclean threshold hlen
    have hroom := h.room
    have hin := h.length_le herr (hclean x List.mem_cons_self)
    rw [h.depthOf_eq, Nat.min_eq_left hin] at hdepth
    have hchain := h.chain fun y hy => hclean y (List.mem_cons_of_mem x hy)
    change _ ≤ x.depth + (if opens then 1 else 0) at hlen
    unfold shallowerAbove at hlen ⊢
    by_cases ht : x.tabDepth < threshold
    · -- The chain begins with the line itself, which must then have opened a
      -- scope.
      rw [if_pos ht] at hlen ⊢
      rw [List.length_cons] at hlen ⊢
      cases opens with
      | false =>
        rw [if_neg Bool.false_ne_true] at hlen
        omega
      | true =>
        obtain ⟨s, rfl, hs⟩ := hnew rfl
        obtain ⟨hopened, hdepths⟩ := hchain x.tabDepth hin
        have hall : ([s] ++ scopes.drop (scopes.length - x.depth)).length
            - ((shallowerAbove x.tabDepth above).length + 1) = 0 := by
          rw [List.length_append, List.length_drop, List.length_singleton]
          omega
        rw [hall, List.drop_zero, hdepth]
        refine ⟨.cons hs hopened, ?_⟩
        rw [List.map_cons, hdepths, hdepth, List.length_cons, List.range_succ,
          List.reverse_append]
        rfl
    · -- The chain is a tail of the one from the line, and its scopes lie below
      -- the new ones.
      rw [if_neg ht] at hlen ⊢
      have htail :=
        (shallowerAbove_suffix (Nat.le_of_not_lt ht) above).length_le
      rw [drop_append_drop new (hdepth ▸ htail) (hdepth ▸ Nat.le_trans hin hroom)]
      exact hchain threshold (Nat.le_trans htail hin)

end Settled

/-! ## Along a run

A run takes lines that say something and passes over the others. The reader has
counted every line of the list, functions too. Both are followed together, from
one line to the next. -/

variable {σ : Type} {host : Host σ} {calls : Callables σ} {token : Option Nat}

open Drive in
/-- **A line that has been taken keeps the stack settled.** Taking a line
closes the scopes deeper than it and may open one. The depth of the line has
been counted from the layout (`hdepth`), and where the indentation asks for
more scopes than are open the line is an error (`herr`), so that the chain is
not asked for any more. -/
theorem Settled.take {layout : Layout} {above : List (Placed Item)}
    {p q : Progress} {w v : World σ} {x : Placed Item} {exits : Bool}
    (h : Settled layout above p.scopes)
    (hdepth : x.depth = min (layout.depthOf x.tabDepth) layout.openScopes)
    (herr : layout.openScopes < layout.depthOf x.tabDepth →
      x.content.toStep.error?.isSome)
    (hx : x.content.toStep.isBlank = false)
    (ht : (take host calls (x.map Item.toStep)).exec p w = (.ok exits, q, v)) :
    Settled (layout.below x x.content.opened?.isSome) (x :: above)
    q.scopes := by
  obtain ⟨p', w', hclose, hstep⟩ := exec_take_eq_ok ht
  have hp' : p'.scopes = p.scopes.drop (p.scopes.length - x.depth) :=
    exec_closeTo_scopes hclose
  obtain ⟨action, outcomes, haction, _, _, rfl⟩ := exec_step_eq_ok hx hstep
  change x.content.toStep = .act action at haction
  have hopened : x.content.opened? = action.opened? := by
    unfold Item.opened?
    rw [haction]
    rfl
  show Settled _ _ (p'.machine.after x.line action outcomes).scopes
  rw [Machine.after_scopes]
  -- The scope that the line opens, if any, comes on top of those it stands in.
  rcases ho : action.opened? with _ | ⟨form, target⟩
  · rw [hopened, ho, show p'.machine.scopes = [] ++ _ from hp']
    exact h.below _ [] hdepth herr (by simp)
  · rw [show p'.machine.scopes = _ from hp']
    exact h.below _ [_] hdepth herr fun _ => ⟨_, rfl, hopened.trans ho, rfl⟩

/-- A function among the lines is passed over, and leaves the stack alone. -/
theorem Settled.function {layout : Layout} {above : List (Placed Item)}
    {scopes : List OpenScope} {x : Placed Item}
    (h : Settled layout above scopes)
    (hdepth : x.depth = min (layout.depthOf x.tabDepth) layout.openScopes)
    (herr : layout.openScopes < layout.depthOf x.tabDepth →
      x.content.toStep.error?.isSome) :
    Settled (layout.below x false) (x :: above) scopes := by
  have := h.below false (scopes.take (scopes.length - x.depth)) hdepth herr
    (by simp)
  rwa [List.take_append_drop] at this

/-- **The stack is settled wherever a run comes**, by induction on the lines of
the list: what the run passes over is counted, and what it takes is counted and
executed. -/
theorem settled_of_reaches (done : List (Placed Item)) {layout : Layout}
    {l : List (Placed Item)} {l' : List (Placed Step)} {p p' : Progress}
    {w w' : World σ} (hl : LaidOut layout l)
    (h : Settled layout (linesAbove done) p.scopes)
    (hr : Drive.Reaches host calls token (stepsOf l) p w l' p' w') :
    ∃ passed rest layout', l = passed ++ rest ∧ l' = stepsOf rest ∧
      LaidOut layout' rest ∧
      Settled layout' (linesAbove (done ++ passed)) p'.scopes := by
  induction l generalizing done layout p w with
  | nil =>
    cases hr
    exact ⟨[], [], layout, rfl, rfl, hl, by rwa [List.append_nil]⟩
  | cons x l ih =>
    -- What is left to do once the line itself is behind.
    have go : ∀ {layout' : Layout} {q : Progress} {v : World σ},
        LaidOut layout' l →
        Settled layout' (linesAbove (done ++ [x])) q.scopes →
        Drive.Reaches host calls token (stepsOf l) q v l' p' w' →
        ∃ passed rest layout', x :: l = passed ++ rest ∧ l' = stepsOf rest ∧
          LaidOut layout' rest ∧
          Settled layout' (linesAbove (done ++ passed)) p'.scopes := by
      intro layout' q v hl' h' hr'
      obtain ⟨passed, rest, layout'', rfl, hl'', hlaid, hsettled⟩ :=
        ih (done ++ [x]) hl' h' hr'
      refine ⟨x :: passed, rest, layout'', rfl, hl'', hlaid, ?_⟩
      rwa [List.append_assoc] at hsettled
    cases hr with
    | here => exact ⟨[], x :: l, layout, rfl, rfl, hl, by rwa [List.append_nil]⟩
    | blank hs hr =>
      change x.content.toStep.isBlank = true at hs
      rcases hc : x.content with s | d
      · have hx : x.content.isEmptyLine = true := by
          rw [hc] at hs ⊢
          exact hs
        rw [← linesAbove_concat_of_isEmptyLine hx] at h
        exact go ((LaidOut.cons_of_isEmptyLine hx).1 hl) h hr
      · have hx : x.content.isEmptyLine = false := by
          rw [hc]
          rfl
        obtain ⟨hdepth, herr, hl⟩ := (LaidOut.cons_iff hx).1 hl
        have hopened : x.content.opened?.isSome = false := by
          rw [hc]
          rfl
        rw [hopened] at hl
        have hfunction := h.function hdepth herr
        rw [← linesAbove_concat hx] at hfunction
        exact go hl hfunction hr
    | line hs ht hf hr =>
      change x.content.toStep.isBlank = false at hs
      have hx := Item.isEmptyLine_eq_false hs
      obtain ⟨hdepth, herr, hl⟩ := (LaidOut.cons_iff hx).1 hl
      have htaken := h.take hdepth herr hs ht
      rw [← linesAbove_concat hx] at htaken
      exact go hl htaken hr

/-! ## Programs

A script and the bodies of its functions are laid out when they are read, and a
run of either begins with an empty stack, so each of them is settled from the
beginning. -/

/-- An item is a function if it is one. -/
theorem Item.function?_eq_some_iff {i : Item} {d : FunctionDef} :
    i.function? = some d ↔ i = .function d := by
  cases i <;> simp [Item.function?]

/-- Every list of lines that is executed is laid out. -/
theorem laidOut_of_mem_blocks_readItems {lines : List NumberedLine}
    {block : List (Placed Item)}
    (hb : block ∈ (Program.mk (readItems {} lines)).blocks) :
    LaidOut {} block := by
  obtain rfl | hb := List.mem_cons.1 hb
  · exact laidOut_readItems {} lines
  · obtain ⟨d, hd, rfl⟩ := List.mem_map.1 hb
    obtain ⟨x, hx, hxd⟩ := List.mem_filterMap.1 hd
    obtain ⟨body, hbody⟩ :=
      exists_body_of_mem_readItems hx (Item.function?_eq_some_iff.1 hxd)
    rw [hbody]
    exact laidOut_readBody {} body

/-- The same for a script that is given as a text. -/
theorem laidOut_of_mem_blocks {script : String} {p : Program}
    (h : Program.ofScript script = .ok p) {block : List (Placed Item)}
    (hb : block ∈ p.blocks) :
    LaidOut {} block := by
  obtain ⟨lines, -, rfl⟩ := Program.ofScript_eq_ok_iff.1 h
  exact laidOut_of_mem_blocks_readItems hb

/-- The lines of a program are among its steps, if they say something. -/
theorem Program.mem_allSteps_of_mem_steps {p : Program} {x : Placed Step}
    (hx : x ∈ p.steps) (hblank : x.content.isBlank = false) :
    x ∈ p.allSteps := by
  obtain ⟨⟨content, tabDepth, depth, line⟩, hy, rfl⟩ := List.mem_map.1 hx
  cases content with
  | step s => exact List.mem_flatMap.2 ⟨_, hy, List.mem_singleton.2 rfl⟩
  | function d => cases hblank

/-- So are those in the bodies of its functions. -/
theorem Program.mem_allSteps_of_mem_body {p : Program} {d : FunctionDef}
    (hd : d ∈ p.functions) {x : Placed Step} (hx : x ∈ d.body) :
    x ∈ p.allSteps := by
  obtain ⟨⟨content, tabDepth, depth, line⟩, hy, hyd⟩ := List.mem_filterMap.1 hd
  obtain rfl := Item.function?_eq_some_iff.1 hyd
  exact List.mem_flatMap.2 ⟨_, hy, hx⟩

/-- A program that holds no error holds none in any of its lists of lines. -/
theorem error?_eq_none_of_mem_blocks {p : Program} (h : p.diagnostic = none)
    {block : List (Placed Item)} (hb : block ∈ p.blocks) {x : Placed Item}
    (hx : x ∈ block) :
    x.content.toStep.error? = none := by
  have hall : ∀ s ∈ p.allSteps, s.content.error? = none :=
    List.findSome?_eq_none_iff.1 h
  cases hblank : x.content.toStep.isBlank with
  | true =>
    cases hs : x.content.toStep with
    | invalid e =>
      rw [hs] at hblank
      cases hblank
    | _ => rfl
  | false =>
    obtain rfl | hb := List.mem_cons.1 hb
    · exact hall
        _ (Program.mem_allSteps_of_mem_steps (List.mem_map_of_mem hx) hblank)
    · obtain ⟨d, hd, rfl⟩ := List.mem_map.1 hb
      obtain ⟨y, hy, rfl⟩ := List.mem_map.1 hx
      exact hall y (Program.mem_allSteps_of_mem_body hd hy)

/-- **A run has those scopes open that the indentation shows.** Wherever a run
of a script, or of the body of one of its functions, comes to a line, there are
as many scopes open as the line is deep once the deeper ones are closed. If no
line of the script is an error, they have been opened by the lines that its
depth counts, and these stand at the depths from just above it to 0. -/
theorem Program.scopes_eq_shallowerAbove {script : String} {p : Program}
    (hp : Program.ofScript script = .ok p) {before after : List (Placed Item)}
    {x : Placed Item} (hblock : before ++ x :: after ∈ p.blocks)
    (hx : x.content.toStep.isBlank = false) {input : Value}
    {locals : Bindings Value} {w w₁ w₂ : World σ} {q₁ q₂ : Progress}
    (hreach : Drive.Reaches host calls token (stepsOf (before ++ x :: after))
      (.start input locals) w (stepsOf (x :: after)) q₁ w₁)
    (hclose : (Drive.closeTo host calls x.depth).exec q₁ w₁
      = (.ok (), q₂, w₂)) :
    q₂.scopes.length = x.depth ∧
      (p.diagnostic = none →
        OpenedAlong q₂.scopes
        (shallowerAbove x.tabDepth (linesAbove before))) := by
  obtain ⟨passed, rest, layout, hsplit, hrest, hlaid, hsettled⟩ :=
    settled_of_reaches [] (laidOut_of_mem_blocks hp hblock)
      (p := .start input locals) Settled.start hreach
  have hlength : rest.length = (x :: after).length := by
    have := congrArg List.length hrest
    unfold stepsOf at this
    rw [List.length_map, List.length_map] at this
    exact this.symm
  obtain ⟨rfl, rfl⟩ := List.append_inj' hsplit hlength.symm
  rw [List.nil_append] at hsettled
  obtain ⟨hdepth, herr, -⟩ :=
    (LaidOut.cons_iff (Item.isEmptyLine_eq_false hx)).1 hlaid
  have hroom : x.depth ≤ q₁.scopes.length :=
    Nat.le_trans (hdepth ▸ Nat.min_le_right _ _) hsettled.room
  have hscopes : q₂.scopes = q₁.scopes.drop (q₁.scopes.length - x.depth) :=
    Drive.exec_closeTo_scopes hclose
  refine ⟨?_, fun hdiag => ?_⟩
  · rw [hscopes, List.length_drop]
    omega
  · have hclean :=
      fun y hy => error?_eq_none_of_mem_blocks hdiag hblock (x := y) hy
    have hin := hsettled.length_le herr (hclean x (by simp))
    rw [hsettled.depthOf_eq, Nat.min_eq_left hin] at hdepth
    rw [hscopes, hdepth]
    refine hsettled.chain (fun y hy => hclean y ?_) x.tabDepth hin
    exact List.mem_append_left _ (List.mem_filter.1 (List.mem_reverse.1 hy)).1

/-- A line in a filter in a map, with a function defined in between. -/
theorem scopes_keepProgram :
    let host := Host.none Unit
    let calls := keepProgram.callables host []
    let line : Placed Item := ⟨.step (.act (.eval (.name "keep"))), 3, 2, 5⟩
    ∃ q₁ w₁ q₂ w₂, Drive.Reaches host calls (some 1) keepProgram.steps
        (.start (.array [.array [.truth true]]) []) ⟨(), 1⟩
        (stepsOf [line]) q₁ w₁ ∧
      (Drive.closeTo host calls line.depth).exec q₁ w₁ = (.ok (), q₂, w₂) ∧
      keepProgram.diagnostic = none ∧ q₂.scopes.length = 2 ∧
      OpenedAlong q₂.scopes
        [⟨.step (.act (.scope { kind := .filter })), 2, 1, 4⟩,
          ⟨.step (.act (.scope { kind := .map })), 0, 0, 1⟩] := by
  intro host calls line
  have hdiag : keepProgram.diagnostic = none := by decide
  have hblock : keepProgram.statements.take 4 ++ line :: []
      ∈ keepProgram.blocks :=
    List.mem_cons_self
  have hmap : Drive.Reaches host calls (some 1) keepProgram.steps
      (.start (.array [.array [.truth true]]) []) ⟨(), 1⟩
      (keepProgram.steps.drop 1) _ _ :=
    .next rfl (by cbv) (by cbv)
  obtain ⟨q₁, w₁, hreach, hok⟩ : ∃ q₁ w₁,
      Drive.Reaches host calls (some 1) keepProgram.steps
      (.start (.array [.array [.truth true]]) []) ⟨(), 1⟩
      (stepsOf [line]) q₁ w₁ ∧
      ((Drive.closeTo host calls line.depth).exec q₁ w₁).1 = .ok () :=
    ⟨_, _, hmap.trans (.blank rfl (.blank rfl (.next rfl (by cbv) (by cbv)))),
      by cbv⟩
  have hclose : (Drive.closeTo host calls line.depth).exec q₁ w₁
      = (.ok (), _, _) :=
    Prod.ext hok rfl
  have hscopes := Program.scopes_eq_shallowerAbove ofScript_keepScript hblock
    rfl hreach hclose
  exact ⟨q₁, w₁, _, _, hreach, hclose, hdiag, hscopes.1, hscopes.2 hdiag⟩

end StreamScript
