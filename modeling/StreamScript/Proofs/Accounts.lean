import Mathlib.Data.List.Flatten
import Mathlib.Data.List.Nodup
import Mathlib.Data.List.Pairwise
import StreamScript.Proofs.FormFailures
import StreamScript.Proofs.LineByLine

/-!
# Every line is accounted for

A program keeps one statement for every line of its script, and the lines of a
function twice: as empty lines where they stand, and as steps in its body. So
what a line says is found in one place only. The lines that the items of a
program say, one item after the other, are those that are not empty, each once
and in their order (`flatMap_said_readItems`), and a line is in the body of a
function if and only if the function takes it (`Takes`): it is indented further
than the first line of the function, and so is every line between them that is
not empty.

What is read off the statements follows. Errors come in the order of their
lines, so the first one is that of the smallest line; and a program that
remembers no error has no run that fails for one.
-/

namespace StreamScript

/-! ## What the items say

An item is written at a line of its own, and a function is written over several
lines. What an item says are the lines that are not empty, with their numbers
and indentations. Items that are left behind in place of the lines of a
function are empty, so nothing is said by them. -/

/-- A line as it is written: its number and its indentation. -/
abbrev NumberedLine.place (l : NumberedLine) : Nat × Nat :=
  (l.1, l.2.tabDepth)

/-- Where a statement stands. -/
def Placed.place {α : Type} (x : Placed α) : Nat × Nat :=
  (x.line, x.tabDepth)

/-- **The lines that an item says**: its own, if it is not empty, and behind it
those of a function's body. These are places, of a number and an indentation
each. Empty lines inside a body say nothing, as they say nothing in the script.
-/
def Item.said (x : Placed Item) : List (Nat × Nat) :=
  match x.content with
  | .step s => if s.isBlank then [] else [x.place]
  | .function d => x.place :: (spokenSteps d.body).map Placed.place

section Said

variable {layout : Layout} {lines : List NumberedLine}

/-- There is one step for each line of a body, and it stands where the line
stands. -/
theorem map_place_readBody (layout : Layout) (lines : List NumberedLine) :
    (readBody layout lines).map Placed.place
      = lines.map NumberedLine.place := by
  induction lines generalizing layout with
  | nil => rfl
  | cons l rest ih =>
    cases hl : l.2.isBlank with
    | true =>
      rw [readBody, if_pos hl, List.map_cons, ih]
      rfl
    | false =>
      rw [readBody_cons hl, List.map_cons, ih]
      rfl

/-- The lines that a body says are those of the function that are not empty. -/
theorem map_place_spokenSteps (lines : List NumberedLine) :
    (spokenSteps (readBody {} lines)).map Placed.place
      = (spokenLines lines).map NumberedLine.place := by
  rw [spokenSteps_readBody, map_place_readBody]

/-- The empty lines that a function leaves behind say nothing. -/
theorem flatMap_said_emptyLines (lines : List NumberedLine) :
    (lines.map (emptyLine (.step .blank))).flatMap Item.said = [] := by
  refine List.flatMap_eq_nil_iff.2 fun x hx => ?_
  obtain ⟨l, -, rfl⟩ := List.mem_map.1 hx
  rfl

/-- **Every line that is not empty is said once**, and no other. The induction
is along the reading of the items: a function takes its lines away from what is
read next, and says them. -/
theorem flatMap_said_readItems (layout : Layout) (lines : List NumberedLine) :
    (readItems layout lines).flatMap Item.said
      = (spokenLines lines).map NumberedLine.place := by
  fun_induction readItems layout lines with
  | case1 => rfl
  | case2 layout l rest hl ih =>
    rw [List.flatMap_cons, ih, spokenLines_cons_of_isBlank hl]
    rfl
  | case3 layout l rest hl p header hp body function ih =>
    have hl' : l.2.isBlank = false := Bool.eq_false_iff.2 hl
    have hsaid : Item.said (p.map fun _ => .function function)
        = l.place :: (spokenLines body).map NumberedLine.place :=
      congrArg (l.place :: ·) (map_place_spokenSteps body)
    have hrest : spokenLines rest
        = spokenLines body
        ++ spokenLines (rest.dropWhile (belongsTo l.2.tabDepth)) := by
      rw [spokenLines, spokenLines, spokenLines, ← List.filter_append,
        List.takeWhile_append_dropWhile]
    rw [List.cons_append, List.flatMap_cons, List.flatMap_append,
      flatMap_said_emptyLines, ih, hsaid, spokenLines_cons hl', hrest,
      List.map_cons, List.map_append, List.nil_append]
    rfl
  | case4 layout l rest hl p hcontent p' ih =>
    have hl' : l.2.isBlank = false := Bool.eq_false_iff.2 hl
    have hstep : (stepOf l.1 p.content).isBlank = false := isBlank_stepOf _ _
    have hsaid : Item.said (p'.map .step) = [l.place] := by
      unfold Item.said
      exact if_neg (by simp [p', Placed.map, hstep])
    rw [List.flatMap_cons, ih, hsaid, spokenLines_cons hl']
    rfl

end Said

/-! ## The lines of a function

Which lines a function takes is said in two ways. The one follows the reading:
behind the header, lines are taken as long as they are empty or indented
further. The other is about a single line (`Takes`): it stands below the
header, and neither it nor a line between the two, if it is not empty, is
indented as little as the header. They are the same in a script, since its
lines come in the order of their numbers. -/

/-- **A line that a function takes**: it stands below the first line of the
function and is indented further, and so is every line between them that is not
empty. -/
structure Takes (lines : List NumberedLine) (x : Placed Item)
    (l : NumberedLine) : Prop where
  below : x.line < l.1
  further : x.tabDepth < l.2.tabDepth
  between : ∀ k ∈ lines, k.2.isBlank = false → x.line < k.1 → k.1 < l.1 →
    x.tabDepth < k.2.tabDepth

/-- A line that has been read to say something says it. -/
theorem Layout.parseStatement_of_place {layout : Layout} {line : Nat}
    {lexed : LexLine} {form : LineForm}
    (h : (layout.place line lexed).content = .ok form) :
    parseStatement lexed.tokens = .ok form := by
  unfold place at h
  dsimp only at h
  split at h
  · cases h
  · exact h

/-- **A function as it has been read**: behind its first line stand the lines
of its body, up to the first that is not empty and not indented further. The
lines behind it are found again in the list as they are; that they are left in
it as empty lines is said elsewhere. -/
theorem exists_lines_of_function {layout : Layout} {lines : List NumberedLine}
    {x : Placed Item} (hx : x ∈ readItems layout lines) {d : FunctionDef}
    (hd : x.content = .function d) :
    ∃ before l rest, lines = before ++ l :: rest ∧ l.place = x.place ∧
      parseStatement l.2.tokens = .ok (.function ⟨d.name, d.params⟩) ∧
      d.body = readBody {} (rest.takeWhile (belongsTo x.tabDepth)) := by
  fun_induction readItems layout lines with
  | case1 => cases hx
  | case2 layout l rest hl ih =>
    obtain rfl | hx := List.mem_cons.1 hx
    · cases hd
    · obtain ⟨before, m, after, rfl, h⟩ := ih hx
      exact ⟨l :: before, m, after, rfl, h⟩
  | case3 layout l rest hl p header hp body function ih =>
    obtain hx | hx := List.mem_append.1 hx
    · obtain rfl | hx := List.mem_cons.1 hx
      · obtain rfl : function = d := Item.function.inj hd
        exact ⟨[], l, rest, rfl, rfl, Layout.parseStatement_of_place hp, rfl⟩
      · obtain ⟨_, _, rfl⟩ := List.mem_map.1 hx
        cases hd
    · obtain ⟨before, m, after, hafter, h⟩ := ih hx
      refine ⟨l :: body ++ before, m, after, ?_, h⟩
      rw [List.append_assoc, ← hafter, List.cons_append,
        List.takeWhile_append_dropWhile]
  | case4 layout l rest hl p hcontent p' ih =>
    obtain rfl | hx := List.mem_cons.1 hx
    · cases hd
    · obtain ⟨before, m, after, rfl, h⟩ := ih hx
      exact ⟨l :: before, m, after, rfl, h⟩

/-- Where a list that is in order is cut. What is in front of the cut passes
the test, and so does all that comes before it in the order. -/
theorem mem_takeWhile_iff {α : Type} {R : α → α → Prop}
    (hasymm : ∀ a b, R a b → ¬ R b a) {q : α → Bool} {l : List α}
    (h : l.Pairwise R) {a : α} :
    a ∈ l.takeWhile q ↔ a ∈ l ∧ q a = true ∧ ∀ b ∈ l, R b a → q b = true := by
  induction l with
  | nil => exact iff_of_false (fun ha => by cases ha) fun ha => by cases ha.1
  | cons x l ih =>
    obtain ⟨hx, hl⟩ := List.pairwise_cons.1 h
    cases hq : q x with
    | false =>
      rw [List.takeWhile_cons_of_neg (by simp [hq])]
      refine iff_of_false (fun ha => by cases ha) ?_
      rintro ⟨ha, hqa, hbefore⟩
      obtain rfl | ha := List.mem_cons.1 ha
      · exact Bool.false_ne_true (hq.symm.trans hqa)
      · exact Bool.false_ne_true
          (hq.symm.trans (hbefore x List.mem_cons_self (hx a ha)))
    | true =>
      rw [List.takeWhile_cons_of_pos hq, List.mem_cons, ih hl, List.mem_cons]
      constructor
      · rintro (rfl | ⟨ha, hqa, hbefore⟩)
        · refine ⟨.inl rfl, hq, fun b hb hba => ?_⟩
          obtain rfl | hb := List.mem_cons.1 hb
          · exact hq
          · exact absurd hba (hasymm _ _ (hx b hb))
        · refine ⟨.inr ha, hqa, List.forall_mem_cons.2 ⟨fun _ => hq, hbefore⟩⟩
      · rintro ⟨rfl | ha, hqa, hbefore⟩
        · exact .inl rfl
        · exact .inr
            ⟨ha, hqa, fun b hb => hbefore b (List.mem_cons_of_mem x hb)⟩

/-- Lines in the order of their numbers. -/
abbrev InOrder (lines : List NumberedLine) : Prop :=
  lines.Pairwise fun l m => l.1 < m.1

section InOrder

variable {lines : List NumberedLine} {x y : Placed Item} {d : FunctionDef}

/-- A line is known by its number. -/
theorem InOrder.eq_of_fst_eq (h : InOrder lines) {l m : NumberedLine}
    (hl : l ∈ lines) (hm : m ∈ lines) (heq : l.1 = m.1) : l = m :=
  List.inj_on_of_nodup_map ((List.pairwise_map.2 h).imp Nat.ne_of_lt) hl hm heq

/-- The lines behind a line are those with a larger number. -/
theorem InOrder.mem_behind_iff {before rest : List NumberedLine}
    {l m : NumberedLine} (h : InOrder (before ++ l :: rest)) :
    m ∈ rest ↔ m ∈ before ++ l :: rest ∧ l.1 < m.1 := by
  obtain ⟨-, hbehind, hbefore⟩ := List.pairwise_append.1 h
  constructor
  · intro hm
    exact ⟨List.mem_append_right before (List.mem_cons_of_mem l hm),
      (List.pairwise_cons.1 hbehind).1 m hm⟩
  · rintro ⟨hm, hlt⟩
    obtain hm | hm := List.mem_append.1 hm
    · exact absurd hlt (Nat.lt_asymm (hbefore m hm l List.mem_cons_self))
    · obtain rfl | hm := List.mem_cons.1 hm
      · exact absurd hlt (Nat.lt_irrefl _)
      · exact hm

/-- **The lines in the body of a function** are those that it takes. In one
direction a line is found in the body because it has been read from there; in
the other it is found again in the script by its number, which no other line
has. -/
theorem exists_mem_body_iff (h : InOrder lines) (hx : x ∈ readItems {} lines)
    (hd : x.content = .function d) {l : NumberedLine} (hl : l ∈ lines)
    (hblank : l.2.isBlank = false) :
    (∃ s ∈ d.body, s.content.isBlank = false ∧ s.line = l.1) ↔
    Takes lines x l := by
  obtain ⟨before, m, rest, rfl, hplace, -, hbody⟩ :=
    exists_lines_of_function hx hd
  obtain ⟨hline, htab⟩ := Prod.mk.inj hplace
  have hrest : InOrder rest :=
    (List.pairwise_cons.1 (List.pairwise_append.1 h).2.1).2
  have hbelongs : ∀ k : NumberedLine, k.2.isBlank = false →
      (belongsTo x.tabDepth k = true ↔ x.tabDepth < k.2.tabDepth) := by
    intro k hk
    rw [belongsTo, hk, Bool.false_or, decide_eq_true_iff]
  calc (∃ s ∈ d.body, s.content.isBlank = false ∧ s.line = l.1)
      ↔ l.1 ∈ (spokenSteps d.body).map Placed.line := by
        simp only [spokenSteps, List.mem_map, List.mem_filter,
          Bool.not_eq_true', and_assoc]
    _ ↔ l.1 ∈ (spokenLines (rest.takeWhile (belongsTo x.tabDepth))).map
          Prod.fst := by
        have hplaces := congrArg (List.map Prod.fst)
          (map_place_spokenSteps (rest.takeWhile (belongsTo x.tabDepth)))
        rw [List.map_map, List.map_map] at hplaces
        rw [hbody]
        exact iff_of_eq (congrArg (l.1 ∈ ·) hplaces)
    _ ↔ l ∈ rest.takeWhile (belongsTo x.tabDepth) := by
        constructor
        · intro hmem
          obtain ⟨k, hk, hkl⟩ := List.mem_map.1 hmem
          have hk' := (List.mem_filter.1 hk).1
          have hk'' :=
            h.mem_behind_iff.1 ((List.takeWhile_sublist _).subset hk')
          exact h.eq_of_fst_eq hk''.1 hl hkl ▸ hk'
        · exact fun hmem =>
            List.mem_map_of_mem (List.mem_filter.2 ⟨hmem, by simp [hblank]⟩)
    _ ↔ l ∈ rest ∧ belongsTo x.tabDepth l = true ∧
          ∀ k ∈ rest, k.1 < l.1 → belongsTo x.tabDepth k = true :=
        mem_takeWhile_iff (fun _ _ => Nat.lt_asymm) hrest
    _ ↔ Takes (before ++ m :: rest) x l := by
        rw [hbelongs l hblank, h.mem_behind_iff, hline]
        constructor
        · rintro ⟨⟨-, hbelow⟩, hfurther, hbetween⟩
          refine ⟨hbelow, hfurther, fun k hk hkblank hxk hkl => ?_⟩
          exact (hbelongs k hkblank).1
            (hbetween k (h.mem_behind_iff.2 ⟨hk, hline ▸ hxk⟩) hkl)
        · rintro ⟨hbelow, hfurther, hbetween⟩
          refine ⟨⟨hl, hbelow⟩, hfurther, fun k hk hkl => ?_⟩
          cases hkblank : k.2.isBlank with
          | true => rw [belongsTo, hkblank, Bool.true_or]
          | false =>
            obtain ⟨hk', hmk⟩ := h.mem_behind_iff.1 hk
            exact (hbelongs k hkblank).2
              (hbetween k hk' hkblank (hline ▸ hmk) hkl)

/-- The numbers of the lines that the items say, all together. -/
theorem nodup_flatMap_said (h : InOrder lines) :
    ((readItems {} lines).flatMap fun x =>
      (Item.said x).map Prod.fst).Nodup := by
  have hnumbers :=
    congrArg (List.map Prod.fst) (flatMap_said_readItems {} lines)
  rw [List.map_flatMap, List.map_map] at hnumbers
  rw [hnumbers]
  exact (List.pairwise_map.2 (h.sublist List.filter_sublist)).imp Nat.ne_of_lt

/-- **No line is said by two items.** The numbers of all that is said are in
order, so each comes once, and items that share a number are one. -/
theorem eq_of_mem_said (h : InOrder lines) (hx : x ∈ readItems {} lines)
    (hy : y ∈ readItems {} lines) {n : Nat}
    (hnx : n ∈ (Item.said x).map Prod.fst)
    (hny : n ∈ (Item.said y).map Prod.fst) : x = y := by
  by_contra hne
  have hsymm : Std.Symm (Function.onFun List.Disjoint fun x : Placed Item =>
      (Item.said x).map Prod.fst) :=
        ⟨fun _ _ hdisjoint _ ha hb => hdisjoint hb ha⟩
  exact (List.nodup_flatMap.1 (nodup_flatMap_said h)).2.forall hx hy hne hnx hny

/-- The lines that an item says are its own and those in the body of its
function. -/
theorem mem_said_iff {n : Nat} :
    n ∈ (Item.said x).map Prod.fst ↔
      (x.content.isEmptyLine = false ∧ x.line = n) ∨
      ∃ d, x.content = .function d ∧ ∃ s ∈ d.body, s.content.isBlank = false ∧
        s.line = n := by
  obtain ⟨s | d, tabDepth, depth, line⟩ := x
  · cases hs : s.isBlank <;>
        simp [Item.said, Item.isEmptyLine, Placed.place, hs, @eq_comm _ n]
  · simp [Item.said, Item.isEmptyLine, Placed.place, spokenSteps, @eq_comm _ n,
      and_assoc]

/-- **A line that is not empty is said once**: by the script itself, and then
no function takes it, or by the one function that takes it. A definition counts
as a line of the script itself, so the line that a function begins with is of
the first kind, and so are faulty lines outside of all bodies. -/
theorem said_once (h : InOrder lines) {l : NumberedLine} (hl : l ∈ lines)
    (hblank : l.2.isBlank = false) :
    ((∃ x ∈ readItems {} lines, x.content.isEmptyLine = false ∧ x.line = l.1) ∧
        ∀ x ∈ readItems {} lines, ∀ d, x.content = .function d →
          ¬ Takes lines x l) ∨
      ((¬ ∃ x ∈ readItems {} lines,
          x.content.isEmptyLine = false ∧ x.line = l.1) ∧
        ∃! x, x ∈ readItems {} lines ∧ ∃ d, x.content = .function d ∧
          Takes lines x l) := by
  have hbody : ∀ {y d}, y ∈ readItems {} lines → y.content = .function d →
      Takes lines y l →
      l.1 ∈ (Item.said y).map Prod.fst := fun hy hd htakes =>
    mem_said_iff.2
      (.inr ⟨_, hd, (exists_mem_body_iff h hy hd hl hblank).2 htakes⟩)
  have hsaid : l.1 ∈ (readItems {} lines).flatMap fun x =>
      (Item.said x).map Prod.fst := by
    rw [← List.map_flatMap, flatMap_said_readItems, List.map_map]
    exact List.mem_map_of_mem (List.mem_filter.2 ⟨hl, by simp [hblank]⟩)
  obtain ⟨x, hx, hxl⟩ := List.mem_flatMap.1 hsaid
  obtain hown | ⟨d, hd, hin⟩ := mem_said_iff.1 hxl
  · refine .inl ⟨⟨x, hx, hown⟩, fun y hy d hd htakes => ?_⟩
    -- The function that takes the line would be the item that stands on it.
    obtain rfl := eq_of_mem_said h hx hy hxl (hbody hy hd htakes)
    exact absurd htakes.below (Nat.not_lt_of_le (Nat.le_of_eq hown.2.symm))
  · have htakes := (exists_mem_body_iff h hx hd hl hblank).1 hin
    refine .inr ⟨?_, x, ⟨hx, d, hd, htakes⟩, ?_⟩
    · rintro ⟨y, hy, hown⟩
      obtain rfl := eq_of_mem_said h hx hy hxl (mem_said_iff.2 (.inl hown))
      exact absurd htakes.below (Nat.not_lt_of_le (Nat.le_of_eq hown.2.symm))
    · rintro y ⟨hy, d', hd', htakes'⟩
      exact eq_of_mem_said h hy hx (hbody hy hd' htakes') hxl

end InOrder

/-! ## Errors in the order of their lines

An error is remembered with the step that it stands for, so errors come in the
order of the steps, and these in the order of their lines. The body of a
function lies between its header and what comes behind it, hence this is true
across functions too. -/

section Errors

variable {lines : List NumberedLine}

/-- An error remembers the line it stands on. -/
theorem line_of_stepOf {line : Nat} {content : Except GrammarError LineForm}
    {e : ParseError} (h : stepOf line content = .invalid e) :
    e.line = line := by
  rcases content with _ | _ | _ <;> cases h <;> rfl

/-- In the body of a function. -/
theorem line_of_mem_readBody {layout : Layout} {s : Placed Step}
    (hs : s ∈ readBody layout lines) {e : ParseError}
    (he : s.content = .invalid e) : e.line = s.line := by
  induction lines generalizing layout with
  | nil => cases hs
  | cons l rest ih =>
    cases hl : l.2.isBlank with
    | true =>
      rw [readBody, if_pos hl] at hs
      obtain rfl | hs := List.mem_cons.1 hs
      · cases he
      · exact ih hs
    | false =>
      rw [readBody_cons hl] at hs
      obtain rfl | hs := List.mem_cons.1 hs
      · exact line_of_stepOf he
      · exact ih hs

/-- In the script itself. -/
theorem line_of_mem_readItems {layout : Layout} {x : Placed Item}
    (hx : x ∈ readItems layout lines) {e : ParseError}
    (he : x.content = .step (.invalid e)) : e.line = x.line := by
  fun_induction readItems layout lines with
  | case1 => cases hx
  | case2 layout l rest hl ih =>
    obtain rfl | hx := List.mem_cons.1 hx
    · cases he
    · exact ih hx
  | case3 layout l rest hl p header hp body function ih =>
    obtain hx | hx := List.mem_append.1 hx
    · obtain rfl | hx := List.mem_cons.1 hx
      · cases he
      · obtain ⟨_, _, rfl⟩ := List.mem_map.1 hx
        cases he
    · exact ih hx
  | case4 layout l rest hl p hcontent p' ih =>
    obtain rfl | hx := List.mem_cons.1 hx
    · exact line_of_stepOf (Item.step.inj he)
    · exact ih hx

/-- **An error remembers the line it stands on**, wherever that is. It holds
the number twice, once as the line of the step and once in the error that the
step fails with. -/
theorem line_of_mem_allSteps {s : Placed Step}
    (hs : s ∈ (readItems {} lines).flatMap Item.allSteps) {e : ParseError}
    (he : s.content = .invalid e) : e.line = s.line := by
  obtain ⟨⟨_ | d, tabDepth, depth, line⟩, hx, hs⟩ := List.mem_flatMap.1 hs
  · obtain rfl := List.mem_singleton.1 hs
    exact line_of_mem_readItems hx (congrArg Item.step he)
  · obtain ⟨body, hbody⟩ := exists_body_of_mem_readItems hx rfl
    change s ∈ d.body at hs
    rw [hbody] at hs
    exact line_of_mem_readBody hs he

/-- The lines of the errors are among those that are said. -/
theorem errors_sublist {l : List (Placed Step)}
    (h : ∀ s ∈ l, ∀ e, s.content = .invalid e → e.line = s.line) :
    ((l.filterMap fun s => s.content.error?).map ParseError.line).Sublist
      ((spokenSteps l).map Placed.line) := by
  induction l with
  | nil => exact .slnil
  | cons s l ih =>
    obtain ⟨hs, hl⟩ := List.forall_mem_cons.1 h
    unfold spokenSteps at ih ⊢
    cases hcontent : s.content with
    | blank => simpa [hcontent, Step.error?, Step.isBlank] using ih hl
    | act a =>
      simpa [hcontent, Step.error?, Step.isBlank] using (ih hl).cons s.line
    | invalid e =>
      simpa [hcontent, Step.error?, Step.isBlank, hs e hcontent]
        using (ih hl).cons_cons s.line

/-- What an item says in all of its steps is what it says. -/
theorem spokenSteps_allSteps_sublist (x : Placed Item) :
    ((spokenSteps (Item.allSteps x)).map Placed.line).Sublist
      ((Item.said x).map Prod.fst) := by
  obtain ⟨_ | d, tabDepth, depth, line⟩ := x
  · rename_i s
    cases hs : s.isBlank <;>
        simp [Item.allSteps, Item.said, spokenSteps, hs, Placed.place]
  · simp only [Item.allSteps, Item.said, List.map_cons, List.map_map]
    exact List.sublist_cons_self _ _

/-- **Errors come in the order of their lines.** The errors of a body are
looked up where the function is defined, before those of the lines behind it,
and that is their order in the script. -/
theorem pairwise_errorsOf (h : InOrder lines) :
    (Reading.errorsOf (readItems {} lines)).Pairwise fun e e' =>
      e.line < e'.line := by
  have hsaid :
      ((Reading.errorsOf (readItems {} lines)).map ParseError.line).Sublist
      ((spokenLines lines).map Prod.fst) := by
    refine (errors_sublist fun s hs e he => line_of_mem_allSteps hs he).trans ?_
    have hnumbers :=
      congrArg (List.map Prod.fst) (flatMap_said_readItems {} lines)
    rw [List.map_flatMap, List.map_map] at hnumbers
    rw [spokenSteps, List.filter_flatMap, List.map_flatMap]
    exact hnumbers ▸ List.Sublist.flatMap_right _ fun x _ =>
      spokenSteps_allSteps_sublist x
  have hspoken : ((spokenLines lines).map Prod.fst).Pairwise (· < ·) :=
    List.pairwise_map.2 (h.sublist List.filter_sublist)
  exact List.pairwise_map.1 (hspoken.sublist hsaid)

/-- The first of a list that is in order is the least. -/
theorem head?_eq_some_iff_least {α : Type} {f : α → Nat} {l : List α}
    (h : l.Pairwise fun a b => f a < f b) {a : α} :
    l.head? = some a ↔ a ∈ l ∧ ∀ b ∈ l, f a ≤ f b := by
  cases l with
  | nil => simp
  | cons x l =>
    obtain ⟨hx, -⟩ := List.pairwise_cons.1 h
    rw [List.head?_cons, Option.some_inj]
    constructor
    · rintro rfl
      refine ⟨List.mem_cons_self,
        List.forall_mem_cons.2 ⟨Nat.le_refl _, fun b hb => ?_⟩⟩
      exact Nat.le_of_lt (hx b hb)
    · rintro ⟨ha, hleast⟩
      obtain rfl | ha := List.mem_cons.1 ha
      · rfl
      · exact absurd (hleast x List.mem_cons_self) (Nat.not_le_of_lt (hx a ha))

end Errors

/-! ## What a program says of itself

The statements are given, and with them all that is asked of a program
afterwards: the first error, the names that are stored and the function of a
name. Each is put down here as what it means, and all of it together is what a
program is accountable for (`Accounts`). -/

namespace Program

/-- **A step that is somewhere in a program**: in its own list, or in the body
of a function. All steps that a run can come to are of this kind, whether or
not any run does. -/
def Holds (p : Program) (s : Placed Step) : Prop :=
  s ∈ p.steps ∨ ∃ d ∈ p.functions, s ∈ d.body

/-- An error that a program remembers. -/
def Remembers (p : Program) (e : ParseError) : Prop :=
  ∃ s, p.Holds s ∧ s.content = .invalid e

variable {p : Program}

theorem remembers_iff {e : ParseError} :
    p.Remembers e ↔ e ∈ Reading.errorsOf p.statements := by
  unfold Remembers Reading.errorsOf
  rw [List.mem_filterMap]
  refine exists_congr fun s => ?_
  constructor
  · rintro ⟨hs, he⟩
    have hblank : s.content.isBlank = false := by rw [he]; rfl
    exact ⟨(mem_allSteps_iff hblank).2 hs, by rw [he]; rfl⟩
  · rintro ⟨hs, he⟩
    cases hcontent : s.content with
    | blank => rw [hcontent] at he; cases he
    | act a => rw [hcontent] at he; cases he
    | invalid e' =>
      have hblank : s.content.isBlank = false := by rw [hcontent]; rfl
      rw [hcontent] at he
      exact ⟨(mem_allSteps_iff hblank).1 hs,
        congrArg Step.invalid (Option.some.inj he)⟩

/-- **The names that are stored** are those that some step stores, wherever in
the program it is. Nothing is stored in any other way, so these are all the
locals that a run can bind besides the parameters of functions. -/
theorem mem_storedNames_iff {name : String} :
    name ∈ p.storedNames ↔ ∃ s, p.Holds s ∧
      ((∃ e, s.content = .act (.store name e)) ∨ ∃ f,
        s.content = .act (.storeScope name f)) := by
  unfold storedNames
  rw [List.mem_filterMap]
  refine exists_congr fun s => ?_
  obtain ⟨content, tabDepth, depth, line⟩ := s
  constructor
  · rintro ⟨hs, hname⟩
    rcases content with _ | (_ | _ | ⟨name', e⟩ | _ | ⟨name', f⟩ | _) | _ <;>
        cases hname
    · exact ⟨(mem_allSteps_iff rfl).1 hs, .inl ⟨e, rfl⟩⟩
    · exact ⟨(mem_allSteps_iff rfl).1 hs, .inr ⟨f, rfl⟩⟩
  · rintro ⟨hs, ⟨e, rfl⟩ | ⟨f, rfl⟩⟩ <;>
      exact ⟨(mem_allSteps_iff rfl).2 hs, rfl⟩

/-- **The function of a name** is the last that is defined under it. Earlier
ones stay in the program, and their lines and errors count, but no call comes
to them. -/
theorem function?_eq_some_iff {name : String} {d : FunctionDef} :
    p.function? name = some d ↔ ∃ before x after,
      p.statements = before ++ x :: after ∧
      x.content = .function d ∧ d.name = name ∧
      ∀ y ∈ after, ∀ d', y.content = .function d' → d'.name ≠ name := by
  have hnames : ∀ {y : Placed Item} {d' : FunctionDef},
      y.content.function? = some d' ↔
      y.content = .function d' := by
    rintro ⟨_ | d, _, _, _⟩ d' <;> simp [Item.function?]
  unfold function? functions
  rw [← List.filterMap_reverse, List.find?_filterMap, Option.bind_eq_some_iff]
  constructor
  · rintro ⟨x, hx, hd⟩
    obtain ⟨hname, behind, front, hsplit, hbehind⟩ :=
      List.find?_eq_some_iff_append.1 hx
    rw [hd] at hname
    refine ⟨front.reverse, x, behind.reverse, ?_, hnames.1 hd, by
      simpa using hname, ?_⟩
    · rw [← List.reverse_reverse p.statements, hsplit, List.reverse_append,
        List.reverse_cons, List.append_assoc]
      rfl
    · intro y hy d' hd'
      have hother := hbehind y (List.mem_reverse.1 hy)
      rw [hnames.2 hd'] at hother
      simpa using hother
  · rintro ⟨front, x, behind, hsplit, hd, rfl, hbehind⟩
    refine ⟨x, List.find?_eq_some_iff_append.2 ⟨?_, behind.reverse,
      front.reverse, ?_, ?_⟩, hnames.2 hd⟩
    · rw [hnames.2 hd]
      simp
    · rw [hsplit, List.reverse_append, List.reverse_cons, List.append_assoc]
      rfl
    · intro y hy
      cases hfunction : y.content.function? with
      | none => rfl
      | some d' =>
        have hother := hbehind y (List.mem_reverse.1 hy) d' (hnames.1 hfunction)
        simpa using hother

/-- **A program that accounts for every line of its script.** The fields say of
each line where it has gone, and of what a program keeps besides its
statements, its diagnostic, its functions and its stored names, which lines it
comes from. -/
structure Accounts (p : Program) (lines : List NumberedLine) : Prop where
  /-- There is a statement for every line. -/
  length : p.statements.length = lines.length
  /-- The statements are numbered from 1. -/
  line : ∀ i x, p.statements[i]? = some x → x.line = i + 1
  /-- The lines that are not empty are said, each of them once, and no other. -/
  said : p.statements.flatMap Item.said
    = (spokenLines lines).map NumberedLine.place
  /-- Such a line is said by the script itself and taken by no function, or not
  said by the script itself and taken by one function. -/
  once : ∀ l ∈ lines, l.2.isBlank = false →
    ((∃ x ∈ p.statements, x.content.isEmptyLine = false ∧ x.line = l.1) ∧
        ∀ x ∈ p.statements, ∀ d, x.content = .function d → ¬ Takes lines x l) ∨
      ((¬ ∃ x ∈ p.statements, x.content.isEmptyLine = false ∧ x.line = l.1) ∧
        ∃! x, x ∈ p.statements ∧ ∃ d, x.content = .function d ∧ Takes lines x l)
  /-- The body of a function says the lines that it takes. -/
  taken : ∀ x ∈ p.statements, ∀ d, x.content = .function d → ∀ l ∈ lines,
    l.2.isBlank = false →
    ((∃ s ∈ d.body, s.content.isBlank = false ∧ s.line = l.1) ↔ Takes lines x l)
  /-- It is complete: it goes on to the first line that is not empty and not
  indented further. -/
  complete : ∀ x ∈ p.statements, ∀ d, x.content = .function d →
    ∃ before l rest, lines = before ++ l :: rest ∧ l.place = x.place ∧
      parseStatement l.2.tokens = .ok (.function ⟨d.name, d.params⟩) ∧
      d.body = readBody {} (rest.takeWhile (belongsTo x.tabDepth))
  /-- An error remembers the line it stands on. -/
  errorLine : ∀ s e, p.Holds s → s.content = .invalid e → e.line = s.line
  /-- The diagnostic is the error with the smallest line. -/
  diagnostic : ∀ e, p.diagnostic = some e ↔
    p.Remembers e ∧ ∀ e', p.Remembers e' → e.line ≤ e'.line
  /-- There is one if any error is remembered. -/
  isSome_diagnostic : p.diagnostic.isSome ↔ ∃ e, p.Remembers e
  /-- Without a diagnostic no run fails for a line that fits no form. -/
  runs : p.diagnostic = none →
    ∀ {σ : Type} (host : Host σ) (globals : Bindings Value) (input : Value)
      (w : World σ) (r : RunResult),
    ((p.run host globals input).run w).1 = some r → ∀ e,
    r.error ≠ some (.invalid e)
  /-- The names are those that are stored somewhere. -/
  storedNames : ∀ name, name ∈ p.storedNames ↔ ∃ s, p.Holds s ∧
    ((∃ e, s.content = .act (.store name e)) ∨ ∃ f,
      s.content = .act (.storeScope name f))
  /-- The function of a name is the last that is defined under it. -/
  function? : ∀ name d, p.function? name = some d ↔ ∃ before x after,
    p.statements = before ++ x :: after ∧ x.content = .function d ∧
      d.name = name ∧
      ∀ y ∈ after, ∀ d', y.content = .function d' → d'.name ≠ name
  /-- A reader that goes line by line comes to the same statements, and notes
  the same. -/
  noted : (Reading.ofLines lines).statements = p.statements ∧
    (Reading.ofLines lines).diagnostic = p.diagnostic ∧
    (Reading.ofLines lines).locals = p.storedNames ∧
    ∀ name, (Reading.ofLines lines).functions.get? name = p.function? name

/-- What the first of the errors is. -/
theorem diagnostic_eq_head? (p : Program) :
    p.diagnostic = (Reading.errorsOf p.statements).head? :=
  List.head?_filterMap.symm

/-- Without a diagnostic no line of the program is an error, and no other line
fails with that kind. -/
theorem runs_of_diagnostic_eq_none (h : p.diagnostic = none) {σ : Type}
    (host : Host σ) (globals : Bindings Value) (input : Value) (w : World σ)
    {r : RunResult} (hr : ((p.run host globals input).run w).1 = some r)
    (e : ParseError) :
    r.error ≠ some (.invalid e) := by
  refine p.fits_run (fun s hs e he => ?_) host globals input w hr e
  have hnone := List.findSome?_eq_none_iff.1 h s hs
  rw [he] at hnone
  cases hnone

/-- **A script that has been split into tokens is accounted for**, line by
line. There are as many lines as the text has, so nothing is lost on the way to
the tokens either. A script that has no tokens because one of its lines cannot
be split is not read at all. -/
theorem accounts_for_lines {script : String} {lines : List NumberedLine}
    (h : lexScript script = .ok lines) :
    lines.length = (Text.lines script.toList).length ∧
      ∃ p, Program.ofScript script = .ok p ∧ p.Accounts lines := by
  have hfst := map_fst_lexScript h
  have hlength : lines.length = (Text.lines script.toList).length := by
    simpa using congrArg List.length hfst
  have hline := (map_line_readItems {} lines).trans hfst
  have horder : InOrder lines := by
    have hlt : (lines.map Prod.fst).Pairwise (· < ·) :=
      hfst ▸ List.pairwise_lt_range'
    exact List.pairwise_map.1 hlt
  have herrors := pairwise_errorsOf horder
  refine ⟨hlength, ⟨readItems {} lines⟩,
    Program.ofScript_eq_ok_iff.2 ⟨lines, h, rfl⟩, ?_⟩
  exact {
    length := by simpa using congrArg List.length (map_line_readItems {} lines)
    line := fun i x hx => by
      have hi := congrArg (·[i]?) hline
      simp only [List.getElem?_map, show (readItems {} lines)[i]? = some x
        from hx, Option.map_some] at hi
      obtain ⟨_, heq⟩ := List.getElem?_eq_some_iff.1 hi.symm
      rw [List.getElem_range'] at heq
      omega
    said := flatMap_said_readItems {} lines
    once := fun l hl hblank => said_once horder hl hblank
    taken := fun x hx d hd l hl hblank =>
      exists_mem_body_iff horder hx hd hl hblank
    complete := fun x hx d hd => exists_lines_of_function hx hd
    errorLine := fun s e hs he => by
      have hblank : s.content.isBlank = false := by rw [he]; rfl
      exact line_of_mem_allSteps ((mem_allSteps_iff hblank).2 hs) he
    diagnostic := fun e => by
      rw [diagnostic_eq_head?, head?_eq_some_iff_least herrors, remembers_iff]
      simp only [remembers_iff]
    isSome_diagnostic := by
      simp only [remembers_iff, diagnostic_eq_head?, List.isSome_head?]
      exact ⟨List.exists_mem_of_ne_nil _,
        fun h => h.elim fun _ he => List.ne_nil_of_mem he⟩
    runs := fun hnone _ host globals input w _ hr e =>
      runs_of_diagnostic_eq_none hnone host globals input w hr e
    storedNames := fun name => mem_storedNames_iff
    function? := fun name d => function?_eq_some_iff
    noted := ⟨(Reading.yields_ofLines lines).statements,
      Reading.diagnostic_ofLines (herrors.imp Nat.le_of_lt),
      Reading.locals_ofLines lines,
      Reading.functions_ofLines lines⟩ }

/-- The script with a function in a block is accounted for. -/
theorem keepProgram_accounts_for_lines :
    ∃ lines, lexScript keepScript = .ok lines ∧ lines.length = 5 ∧
      keepProgram.Accounts lines := by
  have hlex : (lexScript keepScript).toOption.map List.length = some 5 := by
    decide +kernel
  cases h : lexScript keepScript with
  | error e =>
    rw [h] at hlex
    cases hlex
  | ok lines =>
    rw [h] at hlex
    obtain ⟨-, p, hp, haccounts⟩ := accounts_for_lines h
    obtain rfl := Except.ok.inj (hp.symm.trans ofScript_keepScript)
    exact ⟨lines, rfl, Option.some.inj hlex, haccounts⟩

end Program

end StreamScript
