import StreamScript.Proofs.ChainLines
import StreamScript.Proofs.LikePrograms

/-!
# Chains, method calls and consecutive lines

A chain in a script can be written as its parts, one per line and indented as
the chain was. What has to be seen is that the script is then read as expected.
The parts stand where the chain stood, since a line that opens no scope leaves
the next one at its own indentation as deep as itself; and what comes behind
finds a layout that means the same, with an indentation in it more than once
(`ReadsActions.read_parts`). In particular the block of the chain is now the
block of its last part. Nor does it matter where a function ends, since the
parts belong to it if the chain does (`ChainsApart.cut`).

So the script is read as the same program with the chain taken apart
(`itemsApart_readItems`), in the script itself or in the body of a function,
and such programs come to the same (`ItemsApart.like`). With the method calls
of `StreamScript.Proofs.Chains` this makes three ways to hand a value on
(`chains_agree`).
-/

namespace StreamScript

open Pattern (splitTopLevel)

variable {σ : Type}

/-! ## Layouts

A layout remembers the indentations of the lines above and how many scopes may
be open. For the next line both are only a means: what matters is how deep each
indentation would be. Two layouts that agree in that are alike, and stay so
when the same line is put below both. A row of lines at one indentation puts it
among those above once for each line, where a single line puts it there once;
the two layouts are alike. -/

namespace Layout

variable {L L' L'' : Layout}

/-- **Two layouts that mean the same for the next line**, and for all that come
behind it. They need not have the same lines above, and do not have if the one
script has a line more. What is asked is how deep each indentation would be,
and that is all a reader asks. -/
structure Alike (L L' : Layout) : Prop where
  openScopes_eq : L'.openScopes = L.openScopes
  depthOf_eq : ∀ tab, L'.depthOf tab = L.depthOf tab

theorem Alike.refl (L : Layout) : L.Alike L := ⟨rfl, fun _ => rfl⟩

theorem Alike.trans (h : L.Alike L') (h' : L'.Alike L'') : L.Alike L'' :=
  ⟨h'.openScopes_eq.trans h.openScopes_eq,
    fun tab => (h'.depthOf_eq tab).trans (h.depthOf_eq tab)⟩

/-- Alike layouts place a line alike, -/
theorem Alike.place_eq (h : L.Alike L') (line : Nat) (l : LexLine) :
    L'.place line l = L.place line l := by
  unfold place
  rw [h.depthOf_eq, h.openScopes_eq]

/-- How deep lines are that come below: one deeper than the line itself if they
are indented further, and otherwise as deep as they would be without it. -/
theorem depthOf_below {α : Type} (L : Layout) (p : Placed α) (opens : Bool)
    (tab : Nat) :
    (L.below p opens).depthOf tab =
      if p.tabDepth < tab then L.depthOf p.tabDepth + 1 else L.depthOf tab :=
      rfl

/-- and are alike below it. -/
theorem Alike.below {α : Type} (h : L.Alike L') (p : Placed α) (opens : Bool) :
    (L.below p opens).Alike (L'.below p opens) where
  openScopes_eq := rfl
  depthOf_eq tab := by
    rw [depthOf_below, depthOf_below, h.depthOf_eq, h.depthOf_eq]

/-- What a line that is not too deep becomes. -/
theorem place_of_le {line : Nat} {l : LexLine}
    (h : L.depthOf l.tabDepth ≤ L.openScopes) :
    L.place line l = ⟨parseStatement l.tokens, l.tabDepth, L.depthOf l.tabDepth,
      line⟩ := by
  unfold place
  dsimp only
  rw [if_neg (Nat.not_lt_of_le h), Nat.min_eq_left h]

end Layout

/-! ## The parts of a line

A line is split at its arrows, and each part is a line with the same number and
indentation. Bodies of functions and whole scripts are read by two functions
that do the same with a line that holds an action. What is shared by the two is
that they read actions one by one (`ReadsActions`), and the parts of a chain
need no more. -/

/-- The parts of a line, each on a line of its own. -/
def lineParts (l : NumberedLine) : List NumberedLine :=
  (splitTopLevel ">>" l.2.tokens).map fun ts => (l.1, { l.2 with tokens := ts })

/-- **Lines with some chains taken apart.** The parts stand at the indentation
of the chain and have its number. Numbers do not matter where this is used,
because scripts are compared without them. -/
inductive ChainsApart : List NumberedLine → List NumberedLine → Prop
  | nil : ChainsApart [] []
  | keep {lines lines' : List NumberedLine} (l : NumberedLine)
      (rest : ChainsApart lines lines') :
      ChainsApart (l :: lines) (l :: lines')
  | apart {lines lines' : List NumberedLine} {l : NumberedLine} {head : Expr}
      {middle : List Expr} {last : ChainEnd}
      (hl : parseStatement l.2.tokens = .ok (.action (.chain head middle last)))
      (rest : ChainsApart lines lines') :
      ChainsApart (l :: lines) (lineParts l ++ lines')

/-- **A way of reading lines** under which an action becomes an action in its
place. Both readers, that of a script and that of a body, are of this kind, and
what is proved of a row of parts is proved of both at once. -/
def ReadsActions {β : Type} (read : Layout → List NumberedLine → List β)
    (g : Placed Step → β) : Prop :=
  ∀ {L : Layout} {l : NumberedLine} {action : Action},
    parseStatement l.2.tokens = .ok (.action action) →
    L.depthOf l.2.tabDepth ≤ L.openScopes →
    ∀ rest, read L (l :: rest) =
      g ⟨.act action, l.2.tabDepth, L.depthOf l.2.tabDepth, l.1⟩ ::
        read
          (L.below (⟨.act action, l.2.tabDepth, L.depthOf l.2.tabDepth, l.1⟩ :
            Placed Step) action.opened?.isSome) rest

/-- A line that says something is not empty. -/
theorem isBlank_eq_false_of_parseStatement {l : LexLine} {k : LineForm}
    (h : parseStatement l.tokens = .ok k) : l.isBlank = false := by
  cases hl : l.tokens with
  | nil =>
    rw [hl] at h
    cases h
  | cons t ts =>
    unfold LexLine.isBlank
    rw [hl]
    rfl

/-- A body reads lines that are actions one by one, -/
theorem readBody_readsActions : ReadsActions readBody id := by
  intro L l action hl hle rest
  rw [readBody_cons (isBlank_eq_false_of_parseStatement hl),
    Layout.place_of_le hle, hl]
  rfl

/-- and so does a script. -/
theorem readItems_readsActions : ReadsActions readItems (Placed.map .step) := by
  intro L l action hl hle rest
  rw [readItems_cons_step (isBlank_eq_false_of_parseStatement hl) ?_,
    Layout.place_of_le hle, hl]
  · rfl
  · rw [Layout.place_of_le hle, hl]
    exact fun header => nofun

section Parts

variable {β : Type} {read : Layout → List NumberedLine → List β}
  {g : Placed Step → β} {l : NumberedLine} {head : Expr} {middle : List Expr}
  {last : ChainEnd}

/-- What a chain ends with is a statement by itself. -/
theorem ChainEnd.Written.parseStatement {ts : List Token}
    (h : last.Written ts) :
    StreamScript.parseStatement ts = .ok (.action last.action) := by
  cases h with
  | expr h => exact LineForm.Written.parseStatement (.expr h)
  | scope h => exact LineForm.Written.parseStatement (.scope h)

/-- **A chain is cut into its parts**: expressions and its last part. That a
line is read as a chain says how it is written, and there the arrows are. The
arrows between the parts are outside of all brackets, so cutting the line at
those finds the parts again. -/
theorem exists_parts_of_chain
    (hl : parseStatement l.2.tokens = .ok (.action (.chain head middle last))) :
    ∃ (parts : List (List Token)) (ts : List Token),
      List.Forall₂ (fun part e => parseExpr part = .ok e) parts
      (head :: middle) ∧
      last.Written ts ∧ splitTopLevel ">>" l.2.tokens = parts ++ [ts] := by
  have hwritten := written_of_parseStatement hl
  generalize l.2.tokens = tokens at hwritten
  cases hwritten with
  | @chain part parts ts _ _ _ hhead hparts hlast =>
    refine ⟨part :: parts, ts, .cons hhead hparts, hlast, ?_⟩
    rw [splitTopLevel_joinChain (.cons hhead hparts),
      hlast.sealed.splitTopLevel]

/-- Expressions and a last part in one place, line by line. The induction is on
the expressions. Each leaves the next line at its own depth, since it opens no
scope, and how deep other lines come behind is what it was. -/
theorem ReadsActions.read_row (hread : ReadsActions read g)
    {parts : List (List Token)} {es : List Expr}
    (hparts : List.Forall₂ (fun part e => parseExpr part = .ok e) parts es)
    {ts : List Token} (hlast : last.Written ts) {L : Layout}
    (hle : L.depthOf l.2.tabDepth ≤ L.openScopes) :
    ∃ L' : Layout,
      L'.openScopes = L.depthOf l.2.tabDepth
      + (if last.action.opened?.isSome then 1 else 0) ∧
      (∀ tab, L'.depthOf tab =
        if l.2.tabDepth < tab then L.depthOf l.2.tabDepth + 1
        else L.depthOf tab) ∧
      ∀ rest,
        read L ((parts ++ [ts]).map (fun ts => (l.1, { l.2 with tokens := ts }))
          ++ rest) = (es.map Action.eval ++ [last.action]).map (fun action =>
          g ⟨.act action, l.2.tabDepth, L.depthOf l.2.tabDepth, l.1⟩)
          ++ read L' rest := by
  induction hparts generalizing L with
  | nil =>
    have hparse : parseStatement ({ l.2 with tokens := ts } : LexLine).tokens =
      .ok (.action last.action) := hlast.parseStatement
    exact ⟨_, rfl, fun _ => rfl,
      fun rest => hread (l := (l.1, { l.2 with tokens := ts })) hparse hle rest⟩
  | @cons part e parts es hpart _ ih =>
    let x : Placed Step :=
      ⟨.act (.eval e), l.2.tabDepth, L.depthOf l.2.tabDepth, l.1⟩
    have hparse :
      parseStatement ({ l.2 with tokens := part } : LexLine).tokens = .ok
      (.action (.eval e)) := LineForm.Written.parseStatement (.expr hpart)
    -- Below an expression the next part is as deep as it, and as many scopes
    -- are open.
    have hdepth :
        (L.below x false).depthOf l.2.tabDepth = L.depthOf l.2.tabDepth := by
      rw [Layout.depthOf_below, if_neg (Nat.lt_irrefl _)]
    obtain ⟨L', hopen, hbelow, hrest⟩ := ih (L := L.below x false)
      (hdepth.trans_le (Nat.le_refl _))
    rw [hdepth] at hopen hbelow hrest
    refine ⟨L', hopen, fun tab => ?_, fun rest => ?_⟩
    · rw [hbelow, Layout.depthOf_below]
      split <;> rfl
    · have hfirst := hread (l := (l.1, { l.2 with tokens := part })) hparse hle
      rw [List.cons_append, List.map_cons, List.cons_append, hfirst]
      exact congrArg (_ :: ·) (hrest rest)

/-- **The parts of a chain are read** where the chain stands, and leave a
layout that means the same. If the chain opens a scope its last part does, and
both leave as many open. -/
theorem ReadsActions.read_parts (hread : ReadsActions read g) {L : Layout}
    (hl : parseStatement l.2.tokens = .ok (.action (.chain head middle last)))
    (hle : L.depthOf l.2.tabDepth ≤ L.openScopes) :
    let x : Placed Step :=
      ⟨.act (.chain head middle last), l.2.tabDepth,
        L.depthOf l.2.tabDepth, l.1⟩
    ∃ L', (L.below x x.content.opened?.isSome).Alike L' ∧
      ∀ rest, read L (lineParts l ++ rest) = x.parts.map g ++ read L' rest := by
  intro x
  obtain ⟨parts, ts, hparts, hlast, hsplit⟩ := exists_parts_of_chain hl
  obtain ⟨L', hopen, hbelow, hrest⟩ := hread.read_row hparts hlast hle
  have hopened :
      last.action.opened? = (Action.chain head middle last).opened? := by
    cases last <;> rfl
  refine ⟨L', ⟨?_, hbelow⟩, fun rest => ?_⟩
  · rw [hopen, hopened]
    rfl
  · unfold lineParts
    rw [hsplit, hrest]
    refine congrArg (· ++ _) ?_
    unfold Placed.parts Step.parts Action.parts
    rw [List.map_map, List.map_map]
    rfl

end Parts

/-! ## Reading them

The whole script is read line by line, with chains left or taken apart. No line
may be an error, because a chain that stands too deep is a single error and its
parts would be several. -/

section Read

variable {lines lines' : List NumberedLine} {L L' : Layout}

/-- A line that is no error is not too deep. -/
theorem Layout.le_of_place {L : Layout} {line : Nat} {l : LexLine}
    {k : LineForm} (h : (L.place line l).content = .ok k) :
    L.depthOf l.tabDepth ≤ L.openScopes ∧ parseStatement l.tokens = .ok k := by
  unfold place at h
  dsimp only at h
  split at h
  · cases h
  · next hlt => exact ⟨Nat.le_of_not_lt hlt, h⟩

/-- A line that has become no error was placed. -/
theorem exists_place_of_error? {line : Nat} {l : LexLine}
    (h : ((L.place line l).map (stepOf line)).content.error? = none) :
    ∃ k, (L.place line l).content = .ok k := by
  cases hcontent : (L.place line l).content with
  | ok k => exact ⟨k, rfl⟩
  | error e =>
    change (stepOf line (L.place line l).content).error? = none at h
    rw [hcontent] at h
    cases h

/-- **A body with chains taken apart** is the body, with chains taken apart. By
`herror` the line with the chain is deep enough for what is above it, and then
so are its parts. -/
theorem unchained_readBody (h : ChainsApart lines lines') (hL : L.Alike L')
    (herror : ∀ x ∈ readBody L lines, x.content.error? = none) :
    Unchained (readBody L lines) (readBody L' lines') := by
  induction h generalizing L L' with
  | nil => exact .nil
  | @keep lines lines' l _ ih =>
    cases hl : l.2.isBlank with
    | true =>
      rw [readBody, if_pos hl] at herror ⊢
      rw [readBody, if_pos hl]
      exact .keep _ (ih hL (List.forall_mem_cons.1 herror).2)
    | false =>
      rw [readBody_cons hl] at herror ⊢
      rw [readBody_cons hl, hL.place_eq]
      exact .keep _ (ih (hL.below _ _) (List.forall_mem_cons.1 herror).2)
  | @apart lines lines' l head middle last hl _ ih =>
    have hblank := isBlank_eq_false_of_parseStatement hl
    have hle : L.depthOf l.2.tabDepth ≤ L.openScopes := by
      rw [readBody_cons hblank] at herror
      obtain ⟨k, hk⟩ := exists_place_of_error? (List.forall_mem_cons.1 herror).1
      exact (Layout.le_of_place hk).1
    have hle' : L'.depthOf l.2.tabDepth ≤ L'.openScopes := by
      rw [hL.depthOf_eq, hL.openScopes_eq]
      exact hle
    obtain ⟨L₁, hL₁, hparts⟩ := readBody_readsActions.read_parts hl hle'
    dsimp only at hL₁ hparts
    rw [hL.depthOf_eq] at hL₁ hparts
    rw [readBody_readsActions hl hle] at herror ⊢
    rw [hparts, List.map_id]
    exact .parts
      _ (ih ((hL.below _ _).trans hL₁) (List.forall_mem_cons.1 herror).2)

/-! ### Where a function ends

The header of a function takes all lines below that are indented further. The
parts of a chain have its indentation, so both scripts are cut in corresponding
places. -/

/-- The parts of a chain belong where it belongs. -/
theorem belongsTo_of_mem_lineParts {l l' : NumberedLine} {head : Expr}
    {middle : List Expr} {last : ChainEnd}
    (hl : parseStatement l.2.tokens = .ok (.action (.chain head middle last)))
    (hl' : l' ∈ lineParts l) (tab : Nat) :
    belongsTo tab l' = belongsTo tab l := by
  obtain ⟨parts, ts, hparts, hlast, hsplit⟩ := exists_parts_of_chain hl
  unfold lineParts at hl'
  rw [hsplit] at hl'
  obtain ⟨part, hpart, rfl⟩ := List.mem_map.1 hl'
  have hne : ({ l.2 with tokens := part } : LexLine).isBlank = false := by
    obtain hpart | hpart := List.mem_append.1 hpart
    · obtain ⟨e, he⟩ := exists_of_forall₂_parseExpr hparts hpart
      exact isBlank_eq_false_of_parseStatement
        (LineForm.Written.parseStatement (.expr he))
    · rw [List.mem_singleton.1 hpart]
      exact isBlank_eq_false_of_parseStatement hlast.parseStatement
  unfold belongsTo
  rw [hne, isBlank_eq_false_of_parseStatement hl]

theorem lineParts_ne_nil {l : NumberedLine} {head : Expr} {middle : List Expr}
    {last : ChainEnd}
    (hl : parseStatement l.2.tokens = .ok (.action (.chain head middle last))) :
    lineParts l ≠ [] := by
  obtain ⟨parts, ts, -, -, hsplit⟩ := exists_parts_of_chain hl
  unfold lineParts
  rw [hsplit]
  simp

/-- Lines are cut at the same place when chains are taken apart. -/
theorem ChainsApart.cut (h : ChainsApart lines lines') (tab : Nat) :
    ChainsApart (lines.takeWhile (belongsTo tab))
      (lines'.takeWhile (belongsTo tab)) ∧
      ChainsApart (lines.dropWhile (belongsTo tab))
      (lines'.dropWhile (belongsTo tab)) := by
  induction h with
  | nil => exact ⟨.nil, .nil⟩
  | @keep lines lines' l h ih =>
    cases hl : belongsTo tab l with
    | true =>
      simp only [List.takeWhile_cons_of_pos hl, List.dropWhile_cons_of_pos hl]
      exact ⟨.keep l ih.1, ih.2⟩
    | false =>
      simp only [List.takeWhile_cons, List.dropWhile_cons, hl,
        Bool.false_eq_true, if_false]
      exact ⟨.nil, .keep l h⟩
  | @apart lines lines' l head middle last hl h ih =>
    have hparts :=
      fun l' (hl' : l' ∈ lineParts l) => belongsTo_of_mem_lineParts hl hl' tab
    cases hbelongs : belongsTo tab l with
    | true =>
      rw [hbelongs] at hparts
      rw [List.takeWhile_append_of_pos hparts,
        List.dropWhile_append_of_pos hparts, List.takeWhile_cons_of_pos
        hbelongs, List.dropWhile_cons_of_pos hbelongs]
      exact ⟨.apart hl ih.1, ih.2⟩
    | false =>
      obtain ⟨l', rest, hcons⟩ :=
        List.exists_cons_of_ne_nil (lineParts_ne_nil hl)
      have hfirst := hparts l' (hcons ▸ List.mem_cons_self)
      rw [hbelongs] at hfirst
      have happart := ChainsApart.apart hl h
      rw [hcons, List.cons_append] at happart ⊢
      simp only [List.takeWhile_cons, List.dropWhile_cons, hbelongs, hfirst,
        Bool.false_eq_true, if_false]
      exact ⟨.nil, happart⟩

/-! ### Items

Of a script with functions in it, items are read: steps of its own, functions,
and empty lines where the lines of a function were. How many of these there are
may differ, and so empty lines come and go on either side. -/

/-- **Items with some chains taken apart**, in the script itself and in its
functions. Empty lines may stand in either list alone, since a function leaves
as many of them behind as its body has lines, and one of the bodies may have
more. -/
inductive ItemsApart : List (Placed Item) → List (Placed Item) → Prop
  | nil : ItemsApart [] []
  | passLeft {l l' : List (Placed Item)} {x : Placed Item}
      (hx : x.content.isEmptyLine = true) (rest : ItemsApart l l') :
      ItemsApart (x :: l) l'
  | passRight {l l' : List (Placed Item)} {x : Placed Item}
      (hx : x.content.isEmptyLine = true) (rest : ItemsApart l l') :
      ItemsApart l (x :: l')
  | step {l l' : List (Placed Item)} (x : Placed Step)
      (rest : ItemsApart l l') :
      ItemsApart (x.map .step :: l) (x.map .step :: l')
  | parts {l l' : List (Placed Item)} (x : Placed Step)
      (rest : ItemsApart l l') :
      ItemsApart (x.map .step :: l) (x.parts.map (Placed.map .step) ++ l')
  | function {α : Type} {l l' : List (Placed Item)} (x : Placed α)
      (name : String) (params : List String) {body body' : List (Placed Step)}
      (hbody : Unchained body body') (rest : ItemsApart l l') :
      ItemsApart (x.map (fun _ => .function ⟨name, params, body⟩) :: l)
        (x.map (fun _ => .function ⟨name, params, body'⟩) :: l')

namespace ItemsApart

variable {l l' k : List (Placed Item)}

/-- Empty lines may stand in front, more on one side than on the other. -/
theorem append_emptyLines (h : ItemsApart l l')
    (lines lines' : List NumberedLine) :
    ItemsApart (lines.map (emptyLine (.step .blank)) ++ l)
      (lines'.map (emptyLine (.step .blank)) ++ l') := by
  induction lines with
  | nil =>
    induction lines' with
    | nil => exact h
    | cons l lines' ih => exact .passRight rfl ih
  | cons l lines ih => exact .passLeft rfl ih

/-- The steps of the script itself. -/
theorem unchained (h : ItemsApart l l') :
    Unchained (l.map (Placed.map Item.toStep))
      (l'.map (Placed.map Item.toStep)) := by
  have hempty : ∀ {x : Placed Item}, x.content.isEmptyLine = true →
      (x.map Item.toStep).content.isBlank = true := fun {x} hx => by
    obtain ⟨s | d, tab, depth, line⟩ := x
    · exact hx
    · rfl
  induction h with
  | nil => exact .nil
  | passLeft hx _ ih => exact .passLeft (hempty hx) ih
  | passRight hx _ ih => exact .passRight (hempty hx) ih
  | step x _ ih => exact .keep x ih
  | parts x _ ih =>
    rw [List.map_append, List.map_map, List.map_cons]
    exact (List.map_id x.parts).symm ▸ .parts x ih
  | function x name params _ _ ih => exact .keep _ ih

/-- **The functions come to the same.** Their bodies have chains taken apart,
or are the same. -/
theorem functions (h : ItemsApart l l') (host : Host σ) :
    List.Forall₂ (FunctionDef.Like host)
      (l.filterMap fun x => x.content.function?)
      (l'.filterMap fun x => x.content.function?) := by
  have hempty : ∀ {x : Placed Item}, x.content.isEmptyLine = true →
      x.content.function? = none :=
    fun {x} hx => by
      obtain ⟨s | d, tab, depth, line⟩ := x
      · rfl
      · cases hx
  induction h with
  | nil => exact .nil
  | passLeft hx _ ih =>
    rw [List.filterMap_cons_none
      (f := fun x : Placed Item => x.content.function?) (hempty hx)]
    exact ih
  | passRight hx _ ih =>
    rw [List.filterMap_cons_none
      (f := fun x : Placed Item => x.content.function?) (hempty hx)]
    exact ih
  | step x _ ih => exact ih
  | parts x _ ih =>
    have hnone : (x.parts.map (Placed.map Item.step)).filterMap
        (fun x => x.content.function?) = [] := by
      rw [List.filterMap_map]
      exact List.filterMap_eq_nil_iff.2 fun _ _ => rfl
    rw [List.filterMap_append, hnone]
    exact ih
  | function x name params hbody _ ih =>
    refine .cons ⟨rfl, rfl, fun calls hc input locals w v => ?_⟩ ih
    exact exists_congr fun e => exists_congr fun m' => and_congr_left fun _ =>
      Drive.lines_result_unchained hc hbody (Machine.grown_start input locals)

/-- **Programs with chains taken apart come to the same.** What a root shows
behind a chain is what it shows behind its parts (`Unchained`), whatever the
functions called are; so the lists of lines leave the same. -/
theorem like {p p' : Program} (h : ItemsApart p.statements p'.statements)
    (host : Host σ) :
    p.Like host p' where
  functions := h.functions host
  steps _ hc input locals _ _ := exists_congr fun _ => exists_congr fun _ =>
    and_congr_left fun _ =>
      Drive.lines_result_unchained hc h.unchained
        (Machine.grown_start input locals)

end ItemsApart

/-- **A script with chains taken apart** is the script, with chains taken
apart. The induction goes along the reading of the first script, whose lines
are those of the second but for the chains; behind a function it goes on where
the function ends. -/
theorem itemsApart_readItems (L : Layout) (lines : List NumberedLine) :
    ∀ L' lines', ChainsApart lines lines' → L.Alike L' →
      (∀ x ∈ (readItems L lines).flatMap Item.allSteps,
        x.content.error? = none) →
      ItemsApart (readItems L lines) (readItems L' lines') := by
  fun_induction readItems L lines with
  | case1 =>
    rintro L' _ ⟨⟩ - -
    rw [readItems]
    exact .nil
  | case2 L l rest hl ih =>
    rintro L' _ (_ | ⟨_, h⟩ | ⟨hchain, h⟩) hL herror
    · rw [readItems_cons_blank hl]
      rw [List.flatMap_cons] at herror
      exact .step (emptyLine .blank l)
        (ih L' _ h hL fun x hx => herror x (List.mem_append_right _ hx))
    · rw [isBlank_eq_false_of_parseStatement hchain] at hl
      cases hl
  | case3 L l rest hl p header hp body function ih =>
    have hblank : l.2.isBlank = false := Bool.eq_false_iff.2 hl
    rintro L' _ (_ | @⟨_, rest', _, h⟩ | ⟨hchain, h⟩) hL herror
    · obtain ⟨hbody, hrest⟩ := h.cut l.2.tabDepth
      have hp' : (L'.place l.1 l.2).content = .ok (.function header) := by
        rw [hL.place_eq]
        exact hp
      rw [readItems_cons_function hblank hp', hL.place_eq]
      rw [List.cons_append, List.flatMap_cons, List.flatMap_append] at herror
      have hread := unchained_readBody hbody (.refl {}) fun x hx =>
        herror x (List.mem_append_left _ hx)
      have hbehind := ih _ _ hrest (hL.below p false) fun x hx =>
        herror x (List.mem_append_right _ (List.mem_append_right _ hx))
      exact .function p header.name header.params hread
        (hbehind.append_emptyLines _ _)
    · have hok := (Layout.le_of_place hp).2
      rw [hchain] at hok
      cases hok
  | case4 L l rest hl p hcontent p' ih =>
    have hblank : l.2.isBlank = false := Bool.eq_false_iff.2 hl
    rintro L'
      _ (_ | @⟨_, rest', _, h⟩ | @⟨_, rest', _, head, middle, last, hchain, h⟩)
          hL herror
    all_goals
      rw [List.flatMap_cons] at herror
      have hbehind := fun L₁ hL₁ => ih L₁ rest' h hL₁ fun x hx =>
        herror x (List.mem_append_right _ hx)
    · have hcontent' : ∀ header,
          (L'.place l.1 l.2).content ≠ .ok (.function header) := by
        rw [hL.place_eq]
        exact hcontent
      rw [readItems_cons_step hblank hcontent', hL.place_eq]
      exact .step p' (hbehind _ (hL.below _ _))
    · have hfirst : p'.content.error? = none :=
        herror p' (List.mem_append_left _ List.mem_cons_self)
      obtain ⟨k, hk⟩ := exists_place_of_error? hfirst
      have hle := (Layout.le_of_place hk).1
      have hle' : L'.depthOf l.2.tabDepth ≤ L'.openScopes := by
        rw [hL.depthOf_eq, hL.openScopes_eq]
        exact hle
      obtain ⟨L₁, hL₁, hparts⟩ := readItems_readsActions.read_parts hchain hle'
      dsimp only at hL₁ hparts
      rw [hL.depthOf_eq] at hL₁ hparts
      have hp : p' =
          ⟨.act (.chain head middle last), l.2.tabDepth, L.depthOf l.2.tabDepth,
            l.1⟩ := by
        simp only [p', p, Layout.place_of_le hle, hchain, Placed.map, stepOf]
      have hopens :
          p'.content.opened? = (Action.chain head middle last).opened? :=
        congrArg (fun x : Placed Step => x.content.opened?) hp
      rw [← hp] at hL₁ hparts
      rw [hparts]
      refine .parts p' (hbehind L₁ ?_)
      rw [hopens]
      exact (hL.below p' _).trans hL₁

end Read

/-! ## Errors

Whether a script has an error is read off from its lines, and the parts of a
line that is none are none. So a diagnostic of the second script is excluded by
that of the first. -/

/-- Taking chains apart brings no error in. -/
theorem Placed.error?_of_mem_parts {x y : Placed Step}
    (hx : x.content.error? = none) (hy : y ∈ x.parts) :
    y.content.error? = none := by
  unfold parts at hy
  obtain ⟨s, hs, rfl⟩ := List.mem_map.1 hy
  obtain ⟨_ | action | e, tab, depth, line⟩ := x
  · rw [List.mem_singleton.1 hs]
    rfl
  · obtain ⟨a, -, rfl⟩ := List.mem_map.1 hs
    rfl
  · cases hx

/-- **To take a chain apart makes no errors.** The parts are deep enough if the
chain was, and each of them is a statement. The other direction is not claimed:
a part may be a line of its own where the chain is not. -/
theorem Unchained.error?_eq_none {l l' : List (Placed Step)}
    (h : Unchained l l') (herror : ∀ x ∈ l, x.content.error? = none) :
    ∀ x ∈ l', x.content.error? = none := by
  induction h with
  | nil => exact herror
  | passLeft _ _ ih => exact ih (List.forall_mem_cons.1 herror).2
  | @passRight _ _ x hx _ ih =>
    refine List.forall_mem_cons.2 ⟨?_, ih herror⟩
    cases hs : x.content with
    | invalid e =>
      rw [hs] at hx
      cases hx
    | _ => rfl
  | keep x _ ih =>
    obtain ⟨hx, hrest⟩ := List.forall_mem_cons.1 herror
    exact List.forall_mem_cons.2 ⟨hx, ih hrest⟩
  | parts x _ ih =>
    obtain ⟨hx, hrest⟩ := List.forall_mem_cons.1 herror
    exact List.forall_mem_append.2 ⟨fun y => Placed.error?_of_mem_parts hx,
      ih hrest⟩

theorem ItemsApart.error?_eq_none {l l' : List (Placed Item)}
    (h : ItemsApart l l')
    (herror : ∀ x ∈ l.flatMap Item.allSteps, x.content.error? = none) :
    ∀ x ∈ l'.flatMap Item.allSteps, x.content.error? = none := by
  induction h with
  | nil => exact herror
  | passLeft _ _ ih =>
    rw [List.flatMap_cons] at herror
    exact ih (List.forall_mem_append.1 herror).2
  | @passRight _ _ x hx _ ih =>
    rw [List.flatMap_cons]
    refine List.forall_mem_append.2 ⟨?_, ih herror⟩
    obtain ⟨(_ | _ | _) | d, tab, depth, line⟩ := x
    · exact List.forall_mem_singleton.2 rfl
    · cases hx
    · cases hx
    · cases hx
  | step x _ ih =>
    rw [List.flatMap_cons] at herror ⊢
    obtain ⟨hx, hrest⟩ := List.forall_mem_append.1 herror
    exact List.forall_mem_append.2 ⟨hx, ih hrest⟩
  | parts x _ ih =>
    rw [List.flatMap_cons] at herror
    obtain ⟨hx, hrest⟩ := List.forall_mem_append.1 herror
    rw [List.flatMap_append, List.flatMap_map]
    rw [show x.parts.flatMap (fun y => Item.allSteps (y.map .step))
      = x.parts from
      List.flatMap_singleton' x.parts]
    refine List.forall_mem_append.2 ⟨fun y => Placed.error?_of_mem_parts ?_,
      ih hrest⟩
    exact hx x List.mem_cons_self
  | function x name params hbody _ ih =>
    rw [List.flatMap_cons] at herror ⊢
    obtain ⟨hx, hrest⟩ := List.forall_mem_append.1 herror
    exact List.forall_mem_append.2 ⟨hbody.error?_eq_none hx, ih hrest⟩

/-! ## Scripts

It remains to go from texts to lines. Empty lines and numbers are taken away on
either side, and what is left of the two scripts differs in one chain. -/

theorem Program.diagnostic_eq_none_iff {p : Program} :
    p.diagnostic = none ↔ ∀ x ∈ p.allSteps, x.content.error? = none :=
  List.findSome?_eq_none_iff

section Scripts

variable {lines lines' : List NumberedLine}
  {before after : List (Nat × List Token)} {tab : Nat} {tokens : List Token}
  {head : Expr} {middle : List Expr} {last : ChainEnd}

theorem ChainsApart.refl (lines : List NumberedLine) :
    ChainsApart lines lines := by
  induction lines with
  | nil => exact .nil
  | cons l lines ih => exact .keep l ih

/-- One line of a script taken apart. -/
theorem chainsApart_of_said (before after : List (Nat × List Token))
    (hchain : parseStatement tokens = .ok (.action (.chain head middle last))) :
    ChainsApart ((before ++ (tab, tokens) :: after).map unnumbered)
      ((before ++ (splitTopLevel ">>" tokens).map (fun part => (tab, part))
        ++ after).map unnumbered) := by
  induction before with
  | nil =>
    have hparts : ((splitTopLevel ">>" tokens).map fun part => (tab, part)).map
        unnumbered = lineParts (unnumbered (tab, tokens)) := by
      unfold lineParts
      rw [List.map_map]
      rfl
    rw [List.nil_append, List.nil_append, List.map_append, hparts]
    exact .apart hchain (.refl _)
  | cons said before ih => exact .keep _ ih

/-- **A chain in a script and its parts, one per line,** come to the same.
Nothing is asked of the lines in front and behind but that they are the same,
so the chain may stand in a scope or in a function. -/
theorem like_of_chain_apart
    (hsaid : saidLines lines = before ++ (tab, tokens) :: after)
    (hchain : parseStatement tokens = .ok (.action (.chain head middle last)))
    (hsaid' : saidLines lines' =
      before ++ (splitTopLevel ">>" tokens).map (fun part => (tab, part))
      ++ after)
    (hdiag : (Program.mk (readItems {} lines)).diagnostic = none) :
    (Program.mk (readItems {} lines')).diagnostic = none ∧
      ∀ {σ : Type} (host : Host σ),
        (Program.ofSaid (saidLines lines)).Like host
        (Program.ofSaid (saidLines lines')) := by
  have happart : ChainsApart ((saidLines lines).map unnumbered)
      ((saidLines lines').map unnumbered) := by
    rw [hsaid, hsaid']
    exact chainsApart_of_said before after hchain
  rw [← Program.diagnostic_ofSaid_eq_none_iff,
    Program.diagnostic_eq_none_iff] at hdiag ⊢
  have hitems := itemsApart_readItems {} _ {} _ happart (.refl {}) hdiag
  exact ⟨hitems.error?_eq_none hdiag, fun host => hitems.like host⟩

end Scripts

/-! ## A chain that opens a scope

The chain of the witness hands a stream on to a scope, with one line in its
block. Taken apart, the block is the block of the second line. -/

/-- A chain with a line in the block of its scope. -/
def mapChain : Program :=
  ⟨[⟨.step (.act (.chain .stream [] (.scope { kind := .map }))), 0, 0, 1⟩,
    ⟨.step (.act (.eval .stream)), 1, 1, 2⟩]⟩

/-- The same with the parts of the chain on two lines. -/
def mapLines : Program :=
  ⟨[⟨.step (.act (.eval .stream)), 0, 0, 1⟩,
    ⟨.step (.act (.scope { kind := .map })), 0, 0, 2⟩,
    ⟨.step (.act (.eval .stream)), 1, 1, 3⟩]⟩

theorem parseExpr_stream : parseExpr ["stream"] = .ok .stream := by
  rw [parseExpr, parseAlternation, parseOperand]
  rfl

theorem parseStatement_stream :
    parseStatement ["stream"] = .ok (.action (.eval .stream)) :=
  LineForm.Written.parseStatement (.expr parseExpr_stream)

/-- Both scripts in tokens, and what is read of them. -/
theorem ofScript_mapChain :
    lexScript "stream >> map\n stream" = .ok
      [(1, ⟨0, ["stream", ">>", "map"], "stream >> map"⟩),
        (2, ⟨1, ["stream"], " stream"⟩)] ∧
    lexScript "stream\nmap\n stream" = .ok
      [(1, ⟨0, ["stream"], "stream"⟩), (2, ⟨0, ["map"], "map"⟩),
        (3, ⟨1, ["stream"], " stream"⟩)] ∧
    Program.ofScript "stream >> map\n stream" = .ok mapChain ∧
    Program.ofScript "stream\nmap\n stream" = .ok mapLines := by
  have hmap : ChainEnd.Written (.scope { kind := .map }) ["map"] :=
    .scope (.bare .map)
  have hlex : lexScript "stream >> map\n stream" = .ok
      [(1, ⟨0, ["stream", ">>", "map"], "stream >> map"⟩),
        (2, ⟨1, ["stream"], " stream"⟩)] :=
    Act.toOption_eq_some_iff.1 (by decide +kernel)
  have hlex' : lexScript "stream\nmap\n stream" = .ok
      [(1, ⟨0, ["stream"], "stream"⟩), (2, ⟨0, ["map"], "map"⟩),
        (3, ⟨1, ["stream"], " stream"⟩)] :=
    Act.toOption_eq_some_iff.1 (by decide +kernel)
  have hchain : parseStatement ["stream", ">>", "map"]
      = .ok (.action (.chain .stream [] (.scope { kind := .map }))) :=
    parseStatement_chain parseExpr_stream .nil hmap
  have hread : readItems {} [(1, ⟨0, ["stream", ">>", "map"], "stream >> map"⟩),
      (2, ⟨1, ["stream"], " stream"⟩)] = mapChain.statements := by
    rw [readItems_readsActions hchain (by decide),
      readItems_readsActions parseStatement_stream (by decide), readItems]
    rfl
  have hread' :
      readItems {} [(1, ⟨0, ["stream"], "stream"⟩), (2, ⟨0, ["map"], "map"⟩),
        (3, ⟨1, ["stream"], " stream"⟩)] = mapLines.statements := by
    rw [readItems_readsActions parseStatement_stream (by decide),
      readItems_readsActions hmap.parseStatement (by decide),
      readItems_readsActions parseStatement_stream (by decide), readItems]
    rfl
  exact ⟨hlex, hlex',
    Program.ofScript_eq_ok_iff.2 ⟨_, hlex, congrArg Program.mk hread.symm⟩,
    Program.ofScript_eq_ok_iff.2 ⟨_, hlex', congrArg Program.mk hread'.symm⟩⟩

/-! ## Chains, method calls and lines

The first part is about one leaf and any calls and scope, which is more than
runs can provide. The second is about runs. -/

/-- **Chains, method calls and consecutive lines agree.** A chain of
expressions does on every branch what their method calls do. And a script with
a chain in it runs to the same output if the parts of the chain stand one per
line in its place, whatever else it holds. -/
theorem chains_agree :
    (∀ {head last : List Token} {parts : List (List Token)} {e e' : Expr}
      {es : List Expr}, parseExpr head = .ok e →
      List.Forall₂ (fun part e => parseExpr part = .ok e) parts es →
      parseExpr last = .ok e' →
      parseStatement (joinChain (head :: parts ++ [last])) =
        .ok (.action (.chain e es (.expr e'))) ∧
      parseStatement (joinMethods (head :: parts ++ [last])) =
        .ok (.action (.eval (e.methods (es ++ [e'])))) ∧
      ∀ {σ : Type} (calls : Callables σ) (scope : Scope),
        (Action.chain e es (.expr e')).execute calls scope =
          (Action.eval (e.methods (es ++ [e']))).execute calls scope) ∧
    ∀ {script script' : String} {lines lines' : List NumberedLine}
      {before after : List (Nat × List Token)} {tab : Nat} {tokens : List Token}
      {head : Expr} {middle : List Expr} {last : ChainEnd} {p : Program},
      lexScript script = .ok lines → lexScript script' = .ok lines' →
      saidLines lines = before ++ (tab, tokens) :: after →
      parseStatement tokens = .ok (.action (.chain head middle last)) →
      saidLines lines' =
        before ++ (splitTopLevel ">>" tokens).map (fun part => (tab, part))
        ++ after →
      Program.ofScript script = .ok p → p.diagnostic = none →
      ∃ p', Program.ofScript script' = .ok p' ∧ p'.diagnostic = none ∧
        ∀ {σ : Type} {host : Host σ}, host.Steady →
        ∀ {globals : Bindings Value} {input : Value} {w w' : World σ},
          ((p.run host globals input).run w).2.generation = w.generation + 1 →
          ((p'.run host globals input).run w').2.generation
          = w'.generation + 1 →
          ∀ v, p.CompletesWith host globals input w v ↔
            p'.CompletesWith host globals input w' v := by
  refine ⟨chain_eq_methods, ?_⟩
  intro script script' lines lines' before after tab tokens head middle last p
    hlex hlex' hsaid hchain hsaid' hp hdiag
  obtain ⟨_, hread, rfl⟩ := Program.ofScript_eq_ok_iff.1 hp
  obtain rfl := Except.ok.inj (hlex.symm.trans hread)
  obtain ⟨hdiag', hlike⟩ := like_of_chain_apart hsaid hchain hsaid' hdiag
  refine ⟨⟨readItems {} lines'⟩,
    Program.ofScript_eq_ok_iff.2 ⟨lines', hlex', rfl⟩, hdiag',
    fun {σ host} hh {globals input w w'} hfresh hfresh' v => ?_⟩
  exact Program.completesWith_iff_of_said (hlike host) hh hfresh hfresh' v

/-- `stream : stream` as a chain, and `stream >> map` as two lines of a
script. -/
theorem chains_agree_map :
    let input : Value := .array [.truth true, .truth false]
    parseStatement (joinMethods [["stream"], ["stream"]]) =
      .ok (.action (.eval (Expr.stream.methods [.stream]))) ∧
    mapLines.CompletesWith (Host.none Unit) [] input ⟨(), 0⟩ input := by
  intro input
  obtain ⟨hlex, hlex', hp, hp'⟩ := ofScript_mapChain
  have hmap : ChainEnd.Written (.scope { kind := .map }) ["map"] :=
    .scope (.bare .map)
  have hsplit : splitTopLevel ">>" ["stream", ">>", "map"]
      = [["stream"], ["map"]] :=
    (splitTopLevel_joinChain (.cons parseExpr_stream .nil) ["map"]).trans
      (congrArg (["stream"] :: ·) hmap.sealed.splitTopLevel)
  have hchain : parseStatement ["stream", ">>", "map"]
      = .ok (.action (.chain .stream [] (.scope { kind := .map }))) :=
    parseStatement_chain parseExpr_stream .nil hmap
  have hsaid : saidLines [(1, ⟨0, ["stream", ">>", "map"], "stream >> map"⟩),
      (2, ⟨1, ["stream"], " stream"⟩)] = [] ++ (0, ["stream", ">>", "map"])
      :: [(1, ["stream"])] :=
    rfl
  have hsaid' :
      saidLines [(1, ⟨0, ["stream"], "stream"⟩), (2, ⟨0, ["map"], "map"⟩),
      (3, ⟨1, ["stream"], " stream"⟩)]
        = [] ++ (splitTopLevel ">>" ["stream", ">>", "map"]).map
        (fun part => (0, part)) ++ [(1, ["stream"])] := by
    rw [hsplit]
    rfl
  have hdiag : mapChain.diagnostic = none := by cbv
  have hfresh :
      ((mapChain.run (Host.none Unit) [] input).run ⟨(), 0⟩).2.generation
      = 1 := by
    cbv
  have hfresh' :
      ((mapLines.run (Host.none Unit) [] input).run ⟨(), 0⟩).2.generation
      = 1 := by
    cbv
  have hresult : ((mapChain.run (Host.none Unit) [] input).run ⟨(), 0⟩).1.map
      (fun r => (r.isComplete, r.output)) = some (true, input) := by
    cbv
  obtain ⟨hmethods, hscripts⟩ := chains_agree
  obtain ⟨q, hq, -, hrun⟩ := hscripts hlex hlex' hsaid hchain hsaid' hp hdiag
  obtain rfl := Except.ok.inj (hp'.symm.trans hq)
  obtain ⟨r, hr, hfields⟩ := Option.map_eq_some_iff.1 hresult
  obtain ⟨hcomplete, houtput⟩ := Prod.mk.inj hfields
  refine ⟨(hmethods parseExpr_stream .nil parseExpr_stream).2.1, ?_⟩
  exact (hrun (Host.steady_none Unit) hfresh hfresh' input).1 ⟨r, hr, hcomplete,
    houtput⟩

end StreamScript
