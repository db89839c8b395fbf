import Mathlib.Data.List.Forall2
import Mathlib.Data.Nat.Basic
import Mathlib.Order.Monotone.Basic
import StreamScript.Proofs.Indentation

/-!
# Scripts laid out anew

Two scripts may say the same and look different: one has more empty lines and
comments, the other is indented further. Reading them yields the same. What is
`spoken` of the one program is that of the other, with other numbers of lines
and other indentations, but with the same depths (`spokenItems_readItems`).

Two things make it so. An empty line is passed over wherever it stands, in the
script and in the body of a function, and it belongs to the function above it
whatever its indentation (`spokenSteps_readBody`,
`spokenItems_readItems_spokenLines`). And indentations are only ever compared,
so that a change that keeps their order keeps all depths (`depthAmong_map`).
-/

namespace StreamScript

/-! ## Reading one line

The two readers are unfolded once for each kind of line: an empty one, a step,
and for whole scripts the header of a function. -/

section Cons

variable {layout : Layout} {l : NumberedLine} {rest : List NumberedLine}

/-- An empty line stays an empty line. -/
theorem readItems_cons_blank (hl : l.2.isBlank = true) :
    readItems layout (l :: rest) = emptyLine (.step .blank) l
      :: readItems layout rest := by
  rw [readItems, if_pos hl]

/-- A line that is no function is a step. -/
theorem readItems_cons_step (hl : l.2.isBlank = false)
    (h : ∀ header, (layout.place l.1 l.2).content ≠ .ok (.function header)) :
    readItems layout (l :: rest) =
      ((layout.place l.1 l.2).map fun content => .step (stepOf l.1 content)) ::
      readItems (layout.below (layout.place l.1 l.2)
        (stepOf l.1 (layout.place l.1 l.2).content).opened?.isSome) rest := by
  rw [readItems, if_neg (by simp [hl])]
  dsimp only
  split
  · next header hp => exact absurd hp (h header)
  · rfl

/-- Any other line of a body is placed and becomes a step, whatever it says. -/
theorem readBody_cons (hl : l.2.isBlank = false) :
    readBody layout (l :: rest) = (layout.place l.1 l.2).map (stepOf l.1) ::
      readBody (layout.below (layout.place l.1 l.2)
        (stepOf l.1 (layout.place l.1 l.2).content).opened?.isSome) rest := by
  rw [readBody, if_neg (by simp [hl])]
  rfl

end Cons

/-! ## What is spoken

To say that empty lines do not matter, they are left out: from the lines that
are read, and from what has been read. Reading lines without the empty ones
yields what is left of reading all of them. In a script the point to be seen is
where a function ends, for an empty line belongs to the function above it
however far it is indented. It can be left out before the lines are cut, since
it never is the one to stop at. -/

/-- The lines that are not empty. -/
def spokenLines (lines : List NumberedLine) : List NumberedLine :=
  lines.filter fun l => !l.2.isBlank

/-- The steps that are not empty. -/
def spokenSteps (l : List (Placed Step)) : List (Placed Step) :=
  l.filter fun x => !x.content.isBlank

/-- A function without the empty lines in its body. -/
def FunctionDef.spoken (d : FunctionDef) : FunctionDef :=
  { d with body := spokenSteps d.body }

/-- An item without the empty lines in it. -/
def Item.spoken : Item → Item
  | .step s => .step s
  | .function d => .function d.spoken

/-- The items that are not empty lines, and without the empty lines in them. -/
def spokenItems (l : List (Placed Item)) : List (Placed Item) :=
  (l.filter fun x => !x.content.isEmptyLine).map (Placed.map Item.spoken)

/-- **What a program says.** Two programs with the same list run alike, up to
the numbers in it, and have the same functions and names. -/
def Program.spoken (p : Program) : List (Placed Item) :=
  spokenItems p.statements

section Blank

variable {l l' : List (Placed Item)} {lines : List NumberedLine} {tab : Nat}

/-- What items say is said item by item. -/
theorem spokenItems_append (l l' : List (Placed Item)) :
    spokenItems (l ++ l') = spokenItems l ++ spokenItems l' := by
  rw [spokenItems, List.filter_append, List.map_append]
  rfl

theorem spokenItems_cons_of_isEmptyLine {x : Placed Item}
    (hx : x.content.isEmptyLine = true) :
    spokenItems (x :: l) = spokenItems l := by
  rw [spokenItems, List.filter_cons_of_neg (by simp [hx])]
  rfl

theorem spokenItems_cons {x : Placed Item}
    (hx : x.content.isEmptyLine = false) :
    spokenItems (x :: l) = x.map Item.spoken :: spokenItems l := by
  rw [spokenItems, List.filter_cons_of_pos (by simp [hx]), List.map_cons]
  rfl

theorem spokenItems_emptyLines (lines : List NumberedLine) :
    spokenItems (lines.map (emptyLine (.step .blank))) = [] := by
  refine List.map_eq_nil_iff.2 (List.filter_eq_nil_iff.2 fun x hx => ?_)
  obtain ⟨l, -, rfl⟩ := List.mem_map.1 hx
  exact Bool.false_ne_true

/-- What is passed over may be left out before a list is cut. -/
theorem filter_takeWhile {α : Type} {p q : α → Bool}
    (h : ∀ a, p a = false → q a = true) (l : List α) :
    (l.takeWhile q).filter p = (l.filter p).takeWhile q := by
  induction l with
  | nil => rfl
  | cons a l ih =>
    cases hp : p a with
    | false =>
      rw [List.takeWhile_cons_of_pos (h a hp),
        List.filter_cons_of_neg (by simp [hp]),
        List.filter_cons_of_neg (by simp [hp]), ih]
    | true =>
      rw [List.filter_cons_of_pos hp]
      cases hq : q a with
      | false =>
        rw [List.takeWhile_cons_of_neg (by simp [hq]),
          List.takeWhile_cons_of_neg (by simp [hq])]
        rfl
      | true =>
        rw [List.takeWhile_cons_of_pos hq, List.takeWhile_cons_of_pos hq,
          List.filter_cons_of_pos hp, ih]

/-- Elements that are always dropped may be filtered away before. -/
theorem filter_dropWhile {α : Type} {p q : α → Bool}
    (h : ∀ a, p a = false → q a = true) (l : List α) :
    (l.dropWhile q).filter p = (l.filter p).dropWhile q := by
  induction l with
  | nil => rfl
  | cons a l ih =>
    cases hp : p a with
    | false =>
      rw [List.dropWhile_cons_of_pos (h a hp),
        List.filter_cons_of_neg (by simp [hp]), ih]
    | true =>
      rw [List.filter_cons_of_pos hp]
      cases hq : q a with
      | false =>
        rw [List.dropWhile_cons_of_neg (by simp [hq]),
          List.dropWhile_cons_of_neg (by simp [hq]), List.filter_cons_of_pos hp]
      | true =>
        rw [List.dropWhile_cons_of_pos hq, List.dropWhile_cons_of_pos hq, ih]

theorem spokenLines_cons_of_isBlank {l : NumberedLine}
    (hl : l.2.isBlank = true) :
    spokenLines (l :: lines) = spokenLines lines :=
  List.filter_cons_of_neg (by simp [hl])

theorem spokenLines_cons {l : NumberedLine} (hl : l.2.isBlank = false) :
    spokenLines (l :: lines) = l :: spokenLines lines :=
  List.filter_cons_of_pos (by simp [hl])

/-- **Empty lines in a body** are passed over. They get a step each, and these
are left out of what is said. -/
theorem spokenSteps_readBody (layout : Layout) (lines : List NumberedLine) :
    spokenSteps (readBody layout lines)
      = readBody layout (spokenLines lines) := by
  induction lines generalizing layout with
  | nil => rfl
  | cons l rest ih =>
    cases hl : l.2.isBlank with
    | true =>
      rw [readBody, if_pos hl, spokenLines_cons_of_isBlank hl]
      exact ih layout
    | false =>
      have hstep : (stepOf l.1 (layout.place l.1 l.2).content).isBlank
          = false := isBlank_stepOf _ _
      rw [readBody_cons hl, spokenLines_cons hl, readBody_cons hl, spokenSteps,
        List.filter_cons_of_pos (by simp [Placed.map, hstep])]
      exact congrArg (_ :: ·) (ih _)

/-- Empty lines belong to any function that is being read. -/
theorem belongsTo_of_isBlank {l : NumberedLine} (h : (!l.2.isBlank) = false) :
    belongsTo tab l = true := by
  rw [belongsTo, show l.2.isBlank = true by simpa using h, Bool.true_or]

/-- **Empty lines in a script** are passed over, in its functions too. The
induction follows the reading. Behind a function it goes on with the lines that
do not belong to it, and these are the same lines, empty ones apart, whether
those are left out before or after. -/
theorem spokenItems_readItems_spokenLines (layout : Layout)
    (lines : List NumberedLine) :
    spokenItems (readItems layout (spokenLines lines))
    = spokenItems (readItems layout lines) := by
  fun_induction readItems layout lines with
  | case1 => rw [spokenLines, List.filter_nil, readItems]
  | case2 layout l rest hl ih =>
    rw [spokenLines_cons_of_isBlank hl]
    exact ih.trans (spokenItems_cons_of_isEmptyLine rfl).symm
  | case3 layout l rest hl p header hp body function ih =>
    have hl' : l.2.isBlank = false := Bool.eq_false_iff.2 hl
    have hbody : (spokenLines rest).takeWhile (belongsTo l.2.tabDepth)
        = spokenLines body :=
      (filter_takeWhile (fun _ => belongsTo_of_isBlank) rest).symm
    have hrest : (spokenLines rest).dropWhile (belongsTo l.2.tabDepth)
        = spokenLines (rest.dropWhile (belongsTo l.2.tabDepth)) :=
      (filter_dropWhile (fun _ => belongsTo_of_isBlank) rest).symm
    have hread : spokenSteps (readBody {} (spokenLines body))
        = spokenSteps (readBody {} body) := by
      rw [spokenSteps_readBody, spokenSteps_readBody, spokenLines, spokenLines,
        List.filter_filter]
      simp only [Bool.and_self]
    rw [spokenLines_cons hl', readItems_cons_function hl' hp, hbody, hrest,
      List.cons_append, spokenItems_cons rfl, spokenItems_append,
      spokenItems_emptyLines, List.nil_append, ih,
      List.cons_append, spokenItems_cons rfl, spokenItems_append,
      spokenItems_emptyLines,
      List.nil_append]
    refine congrArg (· :: _) ?_
    simp only [Placed.map, Item.spoken, FunctionDef.spoken, hread, function]
    rfl
  | case4 layout l rest hl p hcontent p' ih =>
    have hl' : l.2.isBlank = false := Bool.eq_false_iff.2 hl
    have hstep : (Item.step (stepOf l.1 p.content)).isEmptyLine = false :=
      isBlank_stepOf _ _
    rw [spokenLines_cons hl', readItems_cons_step hl' hcontent,
      spokenItems_cons hstep, spokenItems_cons hstep]
    exact congrArg (_ :: ·) ih

end Blank

/-! ## Lines that have moved

A line moves if its number and its indentation change, and its tokens do not.
The map of indentations has to keep the order among those that occur, and
nothing is asked of it elsewhere. Then every line is as deep as before, belongs
to the same function, and is or is not too deep, as it was before. -/

section Moved

variable {α β : Type}

/-- A parse error with another number of its line. -/
def ParseError.renumbered (ρ : Nat → Nat) (e : ParseError) : ParseError :=
  { e with line := ρ e.line }

/-- A step with other numbers of lines. -/
def Step.renumbered (ρ : Nat → Nat) : Step → Step
  | .invalid e => .invalid (e.renumbered ρ)
  | s => s

/-- **Something moved elsewhere**: with another indentation and another number,
but as deep as before. The depth is what the indentation amounts to among the
lines above, and if all of those move alike it stays. -/
def Placed.moved (f ρ : Nat → Nat) (g : α → β) (x : Placed α) : Placed β :=
  ⟨g x.content, f x.tabDepth, x.depth, ρ x.line⟩

/-- A function whose body has moved. -/
def FunctionDef.moved (f ρ : Nat → Nat) (d : FunctionDef) : FunctionDef :=
  { d with body := d.body.map (Placed.moved f ρ (Step.renumbered ρ)) }

/-- An item with what is in it moved. -/
def Item.moved (f ρ : Nat → Nat) : Item → Item
  | .step s => .step (s.renumbered ρ)
  | .function d => .function (d.moved f ρ)

/-- The layout below lines that have been indented otherwise. -/
def Layout.moved (f : Nat → Nat) (layout : Layout) : Layout :=
  { layout with above := layout.above.map f }

/-- **A line that has moved**, whose indentation is among those that are looked
at. `S` holds the indentations at which `f` is known to be monotone, and those
are the ones that occur in the script. -/
structure MovesTo (S : Set Nat) (f ρ : Nat → Nat) (l l' : NumberedLine) :
    Prop where
  mem : l.2.tabDepth ∈ S
  tokens : l'.2.tokens = l.2.tokens
  tabDepth : l'.2.tabDepth = f l.2.tabDepth
  line : l'.1 = ρ l.1

variable {S : Set Nat} {f ρ : Nat → Nat} {layout : Layout} {l l' : NumberedLine}
  {lines lines' : List NumberedLine}

theorem MovesTo.isBlank (h : MovesTo S f ρ l l') : l'.2.isBlank = l.2.isBlank :=
  congrArg List.isEmpty h.tokens

/-- **Only the order of indentations counts.** How deep a line stands is found
out by comparing, and a map that keeps the order keeps the outcome of every
comparison. -/
theorem depthAmong_map (hf : StrictMonoOn f S) {threshold : Nat}
    {above : List Nat} (ht : threshold ∈ S) (ha : ∀ t ∈ above, t ∈ S) :
    depthAmong (f threshold) (above.map f) = depthAmong threshold above := by
  induction above generalizing threshold with
  | nil => rfl
  | cons tab above ih =>
    obtain ⟨htab, habove⟩ := List.forall_mem_cons.1 ha
    rw [List.map_cons, depthAmong, depthAmong, ih htab habove, ih ht habove]
    simp only [hf.lt_iff_lt htab ht]

/-- **A line that has moved is placed as before**: at the depth that its
indentation amounts to, with the same content. Only the order of indentations
counts, and that has been kept. -/
theorem Layout.place_moved (hf : StrictMonoOn f S)
    (ha : ∀ t ∈ layout.above, t ∈ S) (h : MovesTo S f ρ l l') :
    (layout.moved f).place l'.1 l'.2 = (layout.place l.1 l.2).moved f ρ id := by
  have hdepth :
      (layout.moved f).depthOf l'.2.tabDepth = layout.depthOf l.2.tabDepth := by
    rw [h.tabDepth]
    exact depthAmong_map hf h.mem ha
  unfold Layout.place Placed.moved
  rw [hdepth, h.tokens, h.tabDepth, h.line]
  rfl

/-- A line that fits no form is an error that says its number, and the number
has changed. -/
theorem stepOf_renumbered (ρ : Nat → Nat) (line : Nat)
    (content : Except GrammarError LineForm) :
    stepOf (ρ line) content = (stepOf line content).renumbered ρ := by
  rcases content with _ | _ | _ <;> rfl

theorem Step.opened?_renumbered (ρ : Nat → Nat) (s : Step) :
    (s.renumbered ρ).opened? = s.opened? := by
  cases s <;> rfl

theorem Layout.forall_mem_above_below {p : Placed α} {opens : Bool}
    (ha : ∀ t ∈ layout.above, t ∈ S) (hp : p.tabDepth ∈ S) :
    ∀ t ∈ (layout.below p opens).above, t ∈ S :=
  List.forall_mem_cons.2 ⟨hp, ha⟩

/-- **The body of a function that has moved** is the same body, moved. The
layout of the lines above moves with them. What is asked of indentations is
only which of two is larger, and `f` leaves that as it is. -/
theorem readBody_moved (hf : StrictMonoOn f S) (ha : ∀ t ∈ layout.above, t ∈ S)
    (h : List.Forall₂ (MovesTo S f ρ) lines lines') :
    readBody (layout.moved f) lines'
      = (readBody layout lines).map (Placed.moved f ρ (Step.renumbered ρ)) := by
  induction h generalizing layout with
  | nil => rfl
  | @cons l l' rest rest' hl _ ih =>
    cases hblank : l.2.isBlank with
    | true =>
      rw [readBody, if_pos (hl.isBlank.trans hblank), readBody,
        if_pos hblank, ih ha, List.map_cons]
      unfold emptyLine Placed.moved
      rw [hl.tabDepth, hl.line]
      rfl
    | false =>
      rw [readBody_cons (hl.isBlank.trans hblank), readBody_cons hblank,
        Layout.place_moved hf ha hl, List.map_cons]
      have hstep := stepOf_renumbered ρ l.1 (layout.place l.1 l.2).content
      refine congrArg₂ (· :: ·) ?_ ?_
      · unfold Placed.map Placed.moved
        rw [hl.line, id, hstep]
      · rw [hl.line]
        have hopens :
            (stepOf (ρ l.1)
              ((layout.place l.1 l.2).moved f ρ id).content).opened?
            = (stepOf l.1 (layout.place l.1 l.2).content).opened? :=
          (congrArg Step.opened? hstep).trans (Step.opened?_renumbered ρ _)
        rw [hopens, ← ih (Layout.forall_mem_above_below ha hl.mem)]
        rfl

/-- Lists that correspond are cut in corresponding places. -/
theorem forall₂_takeWhile {R : α → β → Prop} {p : α → Bool} {q : β → Bool}
    {l : List α} {l' : List β} (h : List.Forall₂ R l l')
    (hpq : ∀ a b, R a b → p a = q b) :
    List.Forall₂ R (l.takeWhile p) (l'.takeWhile q) := by
  induction h with
  | nil => exact .nil
  | @cons a b l l' hab _ ih =>
    cases hp : p a with
    | false =>
      rw [List.takeWhile_cons_of_neg (by simp [hp]),
        List.takeWhile_cons_of_neg (by simp [← hpq a b hab, hp])]
      exact .nil
    | true =>
      rw [List.takeWhile_cons_of_pos hp,
        List.takeWhile_cons_of_pos ((hpq a b hab).symm.trans hp)]
      exact .cons hab ih

theorem forall₂_dropWhile {R : α → β → Prop} {p : α → Bool} {q : β → Bool}
    {l : List α} {l' : List β} (h : List.Forall₂ R l l')
    (hpq : ∀ a b, R a b → p a = q b) :
    List.Forall₂ R (l.dropWhile p) (l'.dropWhile q) := by
  induction h with
  | nil => exact .nil
  | @cons a b l l' hab h ih =>
    cases hp : p a with
    | false =>
      rw [List.dropWhile_cons_of_neg (by simp [hp]),
        List.dropWhile_cons_of_neg (by simp [← hpq a b hab, hp])]
      exact .cons hab h
    | true =>
      rw [List.dropWhile_cons_of_pos hp,
        List.dropWhile_cons_of_pos ((hpq a b hab).symm.trans hp)]
      exact ih

/-- Lists that come to the same, place by place. -/
theorem map_eq_map_iff_forall₂ {γ : Type} {g : α → γ} {g' : β → γ} {l : List α}
    {l' : List β} :
    l'.map g' = l.map g ↔ List.Forall₂ (fun a b => g' b = g a) l l' := by
  simp only [← List.forall₂_eq_eq_eq, List.forall₂_map_left_iff,
    List.forall₂_map_right_iff]
  exact ⟨.flip, .flip⟩

/-- A line belongs to a function if it is indented further than its header,
before as after. -/
theorem MovesTo.belongsTo (hf : StrictMonoOn f S) (h : MovesTo S f ρ l l')
    {tab : Nat} (ht : tab ∈ S) : belongsTo tab l = belongsTo (f tab) l' := by
  unfold StreamScript.belongsTo
  rw [h.isBlank, h.tabDepth]
  simp only [hf.lt_iff_lt ht h.mem]

theorem emptyLine_moved (h : MovesTo S f ρ l l') :
    emptyLine (.step .blank) l' = (emptyLine (.step .blank) l).moved f ρ
      (Item.moved f ρ) := by
  unfold emptyLine Placed.moved
  rw [h.tabDepth, h.line]
  rfl

/-- **A script that has moved** is the same script, moved. The induction
follows the reading of the first script; the lines of the second correspond to
its lines one by one. -/
theorem readItems_moved (hf : StrictMonoOn f S) (layout : Layout)
    (lines : List NumberedLine) :
    (∀ t ∈ layout.above, t ∈ S) → ∀ lines',
      List.Forall₂ (MovesTo S f ρ) lines lines' →
      readItems (layout.moved f) lines'
        = (readItems layout lines).map (Placed.moved f ρ (Item.moved f ρ)) := by
  fun_induction readItems layout lines with
  | case1 =>
    rintro - _ ⟨⟩
    rw [readItems, List.map_nil]
  | case2 layout l rest hl ih =>
    rintro ha _ (_ | ⟨hll, h⟩)
    rw [readItems_cons_blank (hll.isBlank.trans hl), ih ha _ h, List.map_cons,
      emptyLine_moved hll]
  | case3 layout l rest hl p header hp body function ih =>
    rintro ha _ (_ | @⟨_, l', _, rest', hll, h⟩)
    have hplace := Layout.place_moved hf ha hll
    have hbelongs : ∀ m m', MovesTo S f ρ m m' →
        StreamScript.belongsTo l.2.tabDepth m
        = StreamScript.belongsTo l'.2.tabDepth m' := by
      intro m m' hm
      rw [hll.tabDepth]
      exact hm.belongsTo hf hll.mem
    have hbody := forall₂_takeWhile h hbelongs
    have hrest := forall₂_dropWhile h hbelongs
    have hcontent : ((layout.moved f).place l'.1 l'.2).content
        = .ok (.function header) := by
      rw [hplace]
      exact hp
    have hblank : l'.2.isBlank = false :=
      hll.isBlank.trans (Bool.eq_false_iff.2 hl)
    have hnone : ∀ t ∈ ({} : Layout).above, t ∈ S := fun t ht => by cases ht
    have hread := readBody_moved hf hnone hbody
    have hempty :=
      map_eq_map_iff_forall₂.2 (hbody.imp fun m m' hm => emptyLine_moved hm)
    have hih := ih (Layout.forall_mem_above_below ha hll.mem) _ hrest
    change readBody {} _ = _ at hread
    rw [readItems_cons_function hblank hcontent, hplace, hread, hempty,
      List.cons_append, List.cons_append, List.map_cons, List.map_append,
      List.map_map, ← hih]
    rfl
  | case4 layout l rest hl p hcontent p' ih =>
    rintro ha _ (_ | @⟨_, l', _, rest', hll, h⟩)
    have hplace := Layout.place_moved hf ha hll
    have hstep := stepOf_renumbered ρ l.1 p.content
    have hblank : l'.2.isBlank = false :=
      hll.isBlank.trans (Bool.eq_false_iff.2 hl)
    have hcontent' : ∀ header, ((layout.moved f).place l'.1 l'.2).content
        ≠ .ok (.function header) := by
      intro header
      rw [hplace]
      exact hcontent header
    have hopens : (stepOf (ρ l.1) (p.moved f ρ id).content).opened?
        = (stepOf l.1 p.content).opened? :=
      (congrArg Step.opened? hstep).trans (Step.opened?_renumbered ρ _)
    rw [readItems_cons_step hblank hcontent', hplace, hll.line,
      List.map_cons, hopens]
    refine congrArg₂ (· :: ·) ?_
      (ih (Layout.forall_mem_above_below ha hll.mem) _ h)
    unfold Placed.map Placed.moved
    dsimp only [id]
    rw [hstep]
    rfl

end Moved

/-! ## Programs

Two programs that say the same elsewhere have the same functions, the same
names and the same diagnostic. All of this is read off from what is spoken,
since an empty line defines no function, stores nothing and is no error. -/

section Programs

variable {p p' : Program} {f ρ : Nat → Nat}

theorem Step.isBlank_renumbered (ρ : Nat → Nat) (s : Step) :
    (s.renumbered ρ).isBlank = s.isBlank := by
  cases s <;> rfl

/-- To move lines does not make any of them empty. -/
theorem spokenSteps_moved (l : List (Placed Step)) :
    spokenSteps (l.map (Placed.moved f ρ (Step.renumbered ρ)))
      = (spokenSteps l).map (Placed.moved f ρ (Step.renumbered ρ)) := by
  rw [spokenSteps, List.filter_map]
  refine congrArg _ (List.filter_congr fun x _ => ?_)
  exact congrArg (!·) (Step.isBlank_renumbered ρ x.content)

/-- **What is said is said elsewhere.** Moving leaves empty lines empty, so it
does not matter whether they are left out before or after. -/
theorem spokenItems_moved (l : List (Placed Item)) :
    spokenItems (l.map (Placed.moved f ρ (Item.moved f ρ)))
      = (spokenItems l).map (Placed.moved f ρ (Item.moved f ρ)) := by
  have hempty : ∀ i : Item, (i.moved f ρ).isEmptyLine = i.isEmptyLine := by
    intro i
    cases i with
    | step s => exact Step.isBlank_renumbered ρ s
    | function d => rfl
  have hspoken : ∀ i : Item, (i.moved f ρ).spoken = i.spoken.moved f ρ := by
    intro i
    cases i with
    | step s => rfl
    | function d =>
      refine congrArg (fun body => Item.function { d with body }) ?_
      exact spokenSteps_moved d.body
  induction l with
  | nil => rfl
  | cons x l ih =>
    rw [List.map_cons]
    have hx : (x.moved f ρ (Item.moved f ρ)).content.isEmptyLine
        = x.content.isEmptyLine :=
      hempty x.content
    cases h : x.content.isEmptyLine with
    | true =>
      rw [spokenItems_cons_of_isEmptyLine (hx.trans h),
        spokenItems_cons_of_isEmptyLine h, ih]
    | false =>
      rw [spokenItems_cons (hx.trans h), spokenItems_cons h, ih, List.map_cons]
      refine congrArg (· :: _) ?_
      unfold Placed.map Placed.moved
      dsimp only
      rw [hspoken]

/-- **Two scripts that differ in their layout alone** say the same. Empty lines
may stand anywhere in either, so the two are compared by what they say. -/
theorem spokenItems_readItems {S : Set Nat} (hf : StrictMonoOn f S)
    {lines lines' : List NumberedLine}
    (h : List.Forall₂ (MovesTo S f ρ) (spokenLines lines)
      (spokenLines lines')) :
    spokenItems (readItems {} lines')
      = (spokenItems (readItems {} lines)).map
      (Placed.moved f ρ (Item.moved f ρ)) := by
  rw [← spokenItems_readItems_spokenLines,
    ← spokenItems_readItems_spokenLines {} lines, ← spokenItems_moved]
  exact congrArg spokenItems
    (readItems_moved hf {} _ (fun _ h => by cases h) _ h)

namespace Program

/-- The functions of a program, without the empty lines in them. -/
theorem map_spoken_functions (p : Program) :
    p.functions.map FunctionDef.spoken = p.spoken.filterMap fun x =>
      x.content.function? := by
  obtain ⟨statements⟩ := p
  show (statements.filterMap _).map _ = (spokenItems statements).filterMap _
  induction statements with
  | nil => rfl
  | cons x l ih =>
    obtain ⟨(_ | _ | _) | d, tab, depth, line⟩ := x
    · rw [spokenItems_cons_of_isEmptyLine rfl]
      exact ih
    · rw [spokenItems_cons rfl]
      exact ih
    · rw [spokenItems_cons rfl]
      exact ih
    · rw [spokenItems_cons rfl]
      exact congrArg (d.spoken :: ·) ih

/-- What a run executes of a program. -/
theorem spokenSteps_steps (p : Program) :
    spokenSteps p.steps
      = spokenSteps (p.spoken.map (Placed.map Item.toStep)) := by
  obtain ⟨statements⟩ := p
  show spokenSteps (statements.map _)
      = spokenSteps ((spokenItems statements).map _)
  induction statements with
  | nil => rfl
  | cons x l ih =>
    obtain ⟨(_ | _ | _) | d, tab, depth, line⟩ := x
    · rw [spokenItems_cons_of_isEmptyLine rfl]
      exact ih
    · rw [spokenItems_cons rfl]
      exact congrArg (_ :: ·) ih
    · rw [spokenItems_cons rfl]
      exact congrArg (_ :: ·) ih
    · rw [spokenItems_cons rfl]
      exact ih

/-- All steps of a program. -/
theorem spokenSteps_allSteps (p : Program) :
    spokenSteps p.allSteps = p.spoken.flatMap Item.allSteps := by
  obtain ⟨statements⟩ := p
  show spokenSteps (statements.flatMap _) = (spokenItems statements).flatMap _
  induction statements with
  | nil => rfl
  | cons x l ih =>
    rw [List.flatMap_cons, spokenSteps, List.filter_append]
    obtain ⟨(_ | _ | _) | d, tab, depth, line⟩ := x
    · rw [spokenItems_cons_of_isEmptyLine rfl]
      exact ih
    · rw [spokenItems_cons rfl]
      exact congrArg (_ :: ·) ih
    · rw [spokenItems_cons rfl]
      exact congrArg (_ :: ·) ih
    · rw [spokenItems_cons rfl, List.flatMap_cons]
      exact congrArg (_ ++ ·) ih

/-- An empty line stores nothing and is no error. -/
theorem filterMap_spokenSteps {α : Type} (g : Step → Option α)
    (hg : g .blank = none) (l : List (Placed Step)) :
    (spokenSteps l).filterMap (fun x => g x.content) = l.filterMap fun x =>
    g x.content := by
  induction l with
  | nil => rfl
  | cons x l ih =>
    obtain ⟨_ | _ | _, tab, depth, line⟩ := x
    · rw [List.filterMap_cons, hg]
      exact ih
    all_goals
      show (_ :: spokenSteps l).filterMap _ = _
      rw [List.filterMap_cons, List.filterMap_cons, ih]

variable (h : p'.spoken = p.spoken.map (Placed.moved f ρ (Item.moved f ρ)))
include h

/-- **The functions are the same**, moved. They come in the same order, with
the same names and parameters, and their bodies say the same. -/
theorem functions_of_spoken :
    p'.functions.map FunctionDef.spoken
      = (p.functions.map FunctionDef.spoken).map (FunctionDef.moved f ρ) := by
  rw [map_spoken_functions, map_spoken_functions, h, List.filterMap_map,
    List.map_filterMap]
  refine List.filterMap_congr fun x _ => ?_
  obtain ⟨_ | d, tab, depth, line⟩ := x <;> rfl

/-- So are those that calls find. -/
theorem function?_of_spoken (name : String) :
    (p'.function? name).map FunctionDef.spoken
      = (p.function? name).map fun d => d.spoken.moved f ρ := by
  have hfind : ∀ (q : Program), (q.function? name).map FunctionDef.spoken
      = (q.functions.map FunctionDef.spoken).reverse.find? fun d =>
      d.name == name := by
    intro q
    rw [← List.map_reverse, List.find?_map]
    rfl
  rw [hfind, functions_of_spoken h, ← List.map_reverse, List.find?_map]
  have hname : (fun d : FunctionDef => d.name == name) ∘ FunctionDef.moved f ρ
      = fun d => d.name == name := rfl
  rw [hname, ← hfind, Option.map_map]
  rfl

/-- The steps of the one are those of the other, moved. -/
theorem spokenSteps_of_spoken :
    spokenSteps p'.steps
      = (spokenSteps p.steps).map (Placed.moved f ρ (Step.renumbered ρ)) := by
  rw [spokenSteps_steps, spokenSteps_steps, h, ← spokenSteps_moved,
    List.map_map, List.map_map]
  refine congrArg spokenSteps (List.map_congr_left fun x _ => ?_)
  obtain ⟨_ | d, tab, depth, line⟩ := x <;> rfl

theorem spokenSteps_allSteps_of_spoken :
    spokenSteps p'.allSteps
      = (spokenSteps p.allSteps).map
      (Placed.moved f ρ (Step.renumbered ρ)) := by
  rw [spokenSteps_allSteps, spokenSteps_allSteps, h, List.flatMap_map,
    List.map_flatMap]
  refine List.flatMap_congr fun x _ => ?_
  obtain ⟨_ | d, tab, depth, line⟩ := x <;> rfl

/-- **The names stored are the same.** A name is stored by a step that says
something, and the text of the step has not changed. -/
theorem storedNames_of_spoken : p'.storedNames = p.storedNames := by
  unfold storedNames
  rw [← filterMap_spokenSteps Step.stored? rfl,
    ← filterMap_spokenSteps Step.stored? rfl p.allSteps,
    spokenSteps_allSteps_of_spoken h, List.filterMap_map]
  refine List.filterMap_congr fun x _ => ?_
  obtain ⟨_ | _ | _, tab, depth, line⟩ := x <;> rfl

/-- **The diagnostic is the same**, at another line. It is the first error
among the steps, and the order of these is kept. -/
theorem diagnostic_of_spoken :
    p'.diagnostic = p.diagnostic.map (ParseError.renumbered ρ) := by
  have hhead : ∀ q : Program, q.diagnostic
      = ((spokenSteps q.allSteps).filterMap fun x =>
        x.content.error?).head? := by
    intro q
    rw [filterMap_spokenSteps Step.error? rfl, List.head?_filterMap]
    rfl
  rw [hhead, hhead, spokenSteps_allSteps_of_spoken h, List.filterMap_map,
    ← List.head?_map, List.map_filterMap]
  refine congrArg List.head? (List.filterMap_congr fun x _ => ?_)
  obtain ⟨_ | _ | _, tab, depth, line⟩ := x <;> rfl

end Program

end Programs

end StreamScript
