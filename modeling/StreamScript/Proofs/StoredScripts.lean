import StreamScript.Proofs.ChainScripts
import StreamScript.Proofs.StoredScopes

/-!
# A stored scope in a script

A script that stores a scope with its last lines and then says the name comes
to the same as the script without the store and without the name. What a run
makes of that has been seen in `StreamScript.Proofs.StoredScopes`; here it is
the reading that matters. The line with the name has to stand as deep as the
scope, in whatever indentation (`Beside`). Then it stands behind the block and
not in it (`Layout.Inside`), and it belongs to the same function if the scope
belongs to one (`Beside.of_append`, `Beside.skip`). So the two scripts are read
as lists of lines, or bodies of one function, that differ as they should
(`itemsEndStored_readItems`).

Nothing is said of the numbers of the lines. The two scripts differ in them, as
empty lines may stand anywhere, and so both are first taken to the script that
says the same without numbers.
-/

namespace StreamScript

variable {σ : Type} {name : String} {s : ScopeForm}

/-! ## Indentations

How deep a line stands is counted by going back over the indentations above it,
each time to the nearest that is smaller. So two indentations are as deep as
each other if the first smaller one above them is the same. For the name behind
a block this has to be seen through: the indentations of the block stand
between, but they are all larger than that of the scope, and are passed over. -/

/-- **An indentation that is as deep as another** which is no smaller: what the
larger one meets first on the way back is smaller than both. By the definition
of a depth nothing above can then tell the two apart. -/
def Beside (tab tab' : Nat) (above : List Nat) : Prop :=
  tab' ≤ tab ∧ ∀ u, above.find? (fun t => decide (t < tab)) = some u → u < tab'

section Indentations

variable {tab tab' : Nat} {above : List Nat}

/-- A larger indentation is no less deep. On the way back from the larger one
at least as many lines are met. -/
theorem depthAmong_le (h : tab' ≤ tab) (above : List Nat) :
    depthAmong tab' above ≤ depthAmong tab above := by
  induction above generalizing tab tab' with
  | nil => exact Nat.le_refl 0
  | cons u above ih =>
    unfold depthAmong
    by_cases hu : u < tab'
    · rw [if_pos hu, if_pos (Nat.lt_of_lt_of_le hu h)]
    · rw [if_neg hu]
      split
      · exact Nat.le_succ_of_le (ih (Nat.le_of_not_lt hu))
      · exact ih h

/-- Two indentations amount to one depth if what the larger one meets first on
the way back is smaller than both. -/
theorem Beside.depthAmong_eq (h : Beside tab tab' above) :
    depthAmong tab' above = depthAmong tab above := by
  obtain ⟨hle, hfirst⟩ := h
  induction above with
  | nil => rfl
  | cons u above ih =>
    unfold depthAmong
    by_cases hu : u < tab
    · rw [List.find?_cons_of_pos (by simpa using hu)] at hfirst
      rw [if_pos (hfirst u rfl), if_pos hu]
    · rw [List.find?_cons_of_neg (by simpa using hu)] at hfirst
      rw [if_neg fun hu' => hu (Nat.lt_of_lt_of_le hu' hle), if_neg hu]
      exact ih hfirst

/-- The other way round: equally deep indentations, of which the second is no
larger, are beside each other. If the first smaller one above them were not
smaller than the second, the second would be less deep. -/
theorem beside_of_depthAmong_eq (hle : tab' ≤ tab)
    (h : depthAmong tab' above = depthAmong tab above) :
    Beside tab tab' above := by
  refine ⟨hle, ?_⟩
  induction above with
  | nil => exact nofun
  | cons u above ih =>
    unfold depthAmong at h
    by_cases hu : u < tab
    · rw [List.find?_cons_of_pos (by simpa using hu)]
      rintro _ ⟨⟩
      -- Otherwise the smaller indentation would go past the line, and meet one
      -- line less.
      by_contra hu'
      rw [if_pos hu, if_neg hu'] at h
      have := depthAmong_le (Nat.le_of_not_lt hu') above
      omega
    · rw [if_neg hu, if_neg fun hu' => hu (Nat.lt_of_lt_of_le hu' hle)] at h
      rw [List.find?_cons_of_neg (by simpa using hu)]
      exact ih h

/-- Deeper lines are passed over on the way back, from an indentation that is
no larger than that of the line above them. -/
theorem depthAmong_append_of_le {deeper : List Nat} (h : ∀ u ∈ deeper, tab < u)
    (hle : tab' ≤ tab) :
    depthAmong tab' (deeper ++ tab :: above) = depthAmong tab' above := by
  induction deeper with
  | nil => exact if_neg (Nat.not_lt_of_le hle)
  | cons u deeper ih =>
    obtain ⟨hu, hdeeper⟩ := List.forall_mem_cons.1 h
    exact (if_neg (by omega)).trans (ih hdeeper)

/-- From a larger one that line is met. -/
theorem depthAmong_lt_append {deeper : List Nat} (h : ∀ u ∈ deeper, tab < u)
    (hlt : tab < tab') :
    depthAmong tab above < depthAmong tab' (deeper ++ tab :: above) := by
  induction deeper generalizing tab' with
  | nil => exact Nat.lt_of_lt_of_eq (Nat.lt_succ_self _) (if_pos hlt).symm
  | cons u deeper ih =>
    obtain ⟨hu, hdeeper⟩ := List.forall_mem_cons.1 h
    rw [List.cons_append, depthAmong]
    split
    · exact Nat.lt_succ_of_lt (ih hdeeper hu)
    · exact ih hdeeper hlt

/-- **A line behind the block of another** that is as deep as it stands beside
it. The lines of the block stand between and are all indented further. They are
passed over on the way back from `tab'`, or the line would be deeper. -/
theorem beside_of_depthAmong_append {deeper : List Nat}
    (h : ∀ u ∈ deeper, tab < u)
    (hdepth : depthAmong tab' (deeper ++ tab :: above) = depthAmong tab above) :
    Beside tab tab' above := by
  have hle : tab' ≤ tab := by
    by_contra hlt
    have hmet :
        depthAmong tab above < depthAmong tab' (deeper ++ tab :: above) :=
      depthAmong_lt_append h (Nat.lt_of_not_le hlt)
    omega
  rw [depthAmong_append_of_le h hle] at hdepth
  exact beside_of_depthAmong_eq hle hdepth

/-- Beside each other in a list of lines, beside each other in what is
nearer. -/
theorem Beside.of_append {above' : List Nat}
    (h : Beside tab tab' (above ++ above')) :
    Beside tab tab' above := by
  refine ⟨h.1, fun u hu => h.2 u ?_⟩
  rw [List.find?_append, hu]
  rfl

/-- They stand below the same lines. A line above the two that the one is
indented below is one that the other is indented below too. -/
theorem Beside.lt {first : Nat} {above' : List Nat}
    (h : Beside tab tab' (above ++ first :: above')) (habove : ∀ u ∈ above,
      first < u) (hfirst : first < tab) : first < tab' := by
  cases hfind : above.find? fun t => decide (t < tab) with
  | some u =>
    refine (habove u (List.mem_of_find?_eq_some hfind)).trans (h.2 u ?_)
    rw [List.find?_append, hfind]
    rfl
  | none =>
    refine h.2 first ?_
    rw [List.find?_append, hfind,
      List.find?_cons_of_pos (by simpa using hfirst)]
    rfl

/-- What belongs to a function is passed over from behind it. Either the
function itself is met on the way back, or something nearer that is indented no
further. -/
theorem Beside.skip {first : Nat} {nearer taken above' : List Nat}
    (h : Beside tab tab' (nearer ++ (taken ++ first :: above')))
    (htaken : ∀ u ∈ taken, first < u)
    (hout : tab ≤ first ∨ ∃ u ∈ nearer, u ≤ first) :
    Beside tab tab' (nearer ++ first :: above') := by
  refine ⟨h.1, fun u hu => h.2 u ?_⟩
  rw [List.find?_append] at hu ⊢
  cases hfind : nearer.find? fun t => decide (t < tab) with
  | some u' =>
    rw [hfind] at hu
    exact hu
  | none =>
    rw [hfind] at hu
    rw [List.find?_append, List.find?_eq_none.2 fun t ht => ?_]
    · exact hu
    · have hlt := htaken t ht
      have hle : tab ≤ first := by
        obtain hle | ⟨u', hu', hle⟩ := hout
        · exact hle
        · have := List.find?_eq_none.1 hfind u' hu'
          simp only [decide_eq_true_eq] at this
          omega
      simp only [decide_eq_true_eq]
      omega

end Indentations

/-! ## The line behind a block

While the block is read, the layout keeps what has to be true at its end
(`Layout.Inside`): the line that is to follow is as deep as the scope, and no
line of the block closes the scope. The lines of a block may define functions
if it stands in the script itself. These are recorded whole, and their lines
are indented further than the scope like all others of the block. -/

/-- **The layout in the block of a scope** of this depth and indentation: lines
that are indented further are deeper, and the line that is to stand behind the
block is as deep as the scope. -/
structure Layout.Inside (depth tab tab' : Nat) (L : Layout) : Prop where
  le_tab : tab' ≤ tab
  depth_eq : L.depthOf tab' = depth
  lt_depthOf : ∀ t, tab < t → depth < L.depthOf t
  lt_openScopes : depth < L.openScopes

namespace Layout.Inside

variable {depth tab tab' : Nat} {L : Layout}

/-- Below the line that opens the scope. -/
theorem below_opened (hbeside : Beside tab tab' L.above) (x : Placed Step)
    (htab : x.tabDepth = tab) (hdepth : x.depth = L.depthOf tab) :
    (L.below x true).Inside (L.depthOf tab) tab tab' where
  le_tab := hbeside.1
  depth_eq := by
    rw [depthOf_below, htab, if_neg (Nat.not_lt_of_le hbeside.1)]
    exact hbeside.depthAmong_eq
  lt_depthOf t ht := by
    rw [depthOf_below, htab, if_pos ht]
    exact Nat.lt_succ_self _
  lt_openScopes := Nat.lt_succ_of_le (Nat.le_of_eq hdepth.symm)

/-- Lines of the block are deeper than the scope. -/
theorem lt_place (h : L.Inside depth tab tab') (line : Nat) {l : LexLine}
    (hl : tab < l.tabDepth) : depth < (L.place line l).depth :=
  Nat.lt_min.2 ⟨h.lt_depthOf _ hl, h.lt_openScopes⟩

/-- Below a line of the block. -/
theorem below {α : Type} (h : L.Inside depth tab tab') {p : Placed α}
    (htab : tab < p.tabDepth) (hdepth : depth < p.depth) (opens : Bool) :
    (L.below p opens).Inside depth tab tab' where
  le_tab := h.le_tab
  depth_eq := by
    rw [depthOf_below,
      if_neg (Nat.not_lt_of_le (Nat.le_trans h.le_tab (Nat.le_of_lt htab)))]
    exact h.depth_eq
  lt_depthOf t ht := by
    rw [depthOf_below]
    split
    · exact Nat.lt_succ_of_lt (h.lt_depthOf _ htab)
    · exact h.lt_depthOf t ht
  lt_openScopes := Nat.lt_of_lt_of_le hdepth (Nat.le_add_right _ _)

end Layout.Inside

section Behind

variable {depth tab : Nat} {L : Layout} {action : Action}
  {block : List NumberedLine} {b : NumberedLine}

/-- **A line behind a block** is read behind it, as deep as the scope, and all
lines of the block stand in the scope. The induction is on the block, with the
layout generalized. -/
theorem readBody_append_line
    (hb : parseStatement b.2.tokens = .ok (.action action))
    (hL : L.Inside depth tab b.2.tabDepth)
    (hblock : ∀ l ∈ block, tab < l.2.tabDepth) :
    readBody L (block ++ [b]) =
        readBody L block ++ [⟨.act action, b.2.tabDepth, depth, b.1⟩] ∧
      ∀ z ∈ readBody L block, standsIn depth z = true := by
  induction block generalizing L with
  | nil =>
    have hle : L.depthOf b.2.tabDepth ≤ L.openScopes := by
      rw [hL.depth_eq]
      exact Nat.le_of_lt hL.lt_openScopes
    rw [List.nil_append, readBody_readsActions hb hle, hL.depth_eq, readBody,
      readBody]
    exact ⟨rfl, List.forall_mem_nil _⟩
  | cons l block ih =>
    obtain ⟨hl, hblock⟩ := List.forall_mem_cons.1 hblock
    cases hblank : l.2.isBlank with
    | true =>
      obtain ⟨hread, hin⟩ := ih hL hblock
      rw [List.cons_append, readBody, if_pos hblank, readBody,
        if_pos hblank, hread]
      exact ⟨rfl, List.forall_mem_cons.2 ⟨rfl, hin⟩⟩
    | false =>
      have hdeep := hL.lt_place l.1 hl
      rw [List.cons_append, readBody_cons hblank, readBody_cons hblank]
      obtain ⟨hread, hin⟩ :=
        ih (hL.below (p := L.place l.1 l.2) hl hdeep _) hblock
      rw [hread]
      refine ⟨rfl, List.forall_mem_cons.2 ⟨?_, hin⟩⟩
      unfold standsIn
      rw [Bool.or_eq_true, decide_eq_true_iff]
      exact .inr hdeep

/-- A line that is not empty and not indented further belongs to no function
there. -/
theorem belongsTo_eq_false {tab : Nat} {l : NumberedLine}
    (hblank : l.2.isBlank = false) (hle : l.2.tabDepth ≤ tab) :
    belongsTo tab l = false := by
  unfold belongsTo
  rw [hblank, Bool.false_or, decide_eq_false_iff_not]
  exact Nat.not_lt_of_le hle

/-- **A line behind a block** is read behind it in a script, with the functions
of the block in front of it. It is at the depth of the line in front of the
block, for the indentation it has is beside that of this line. -/
theorem readItems_append_line
    (hb : parseStatement b.2.tokens = .ok (.action action))
    (hL : L.Inside depth tab b.2.tabDepth)
    (hblock : ∀ l ∈ block, tab < l.2.tabDepth) :
    readItems L (block ++ [b]) =
        readItems L block ++ [⟨.step (.act action), b.2.tabDepth, depth, b.1⟩] ∧
      ∀ z ∈ readItems L block, standsIn depth (z.map Item.toStep) = true := by
  have hbelow : ∀ {L : Layout} {l : NumberedLine},
      L.Inside depth tab b.2.tabDepth →
      tab < l.2.tabDepth → belongsTo l.2.tabDepth b = false := fun hL hl =>
    belongsTo_eq_false (isBlank_eq_false_of_parseStatement hb)
      (Nat.le_trans hL.le_tab (Nat.le_of_lt hl))
  fun_induction readItems L block with
  | case1 L =>
    have hle : L.depthOf b.2.tabDepth ≤ L.openScopes := by
      rw [hL.depth_eq]
      exact Nat.le_of_lt hL.lt_openScopes
    rw [List.nil_append, readItems_readsActions hb hle, hL.depth_eq, readItems]
    exact ⟨rfl, List.forall_mem_nil _⟩
  | case2 L l rest hl ih =>
    obtain ⟨-, hrest⟩ := List.forall_mem_cons.1 hblock
    obtain ⟨hread, hin⟩ := ih hL hrest
    rw [List.cons_append, readItems_cons_blank hl, hread]
    exact ⟨rfl, List.forall_mem_cons.2 ⟨rfl, hin⟩⟩
  | case3 L l rest hl p header hp body function ih =>
    obtain ⟨hltab, hrest⟩ := List.forall_mem_cons.1 hblock
    have hblank : l.2.isBlank = false := Bool.eq_false_iff.2 hl
    have hdeep := hL.lt_place l.1 hltab
    have hout := hbelow hL hltab
    obtain ⟨hread, hin⟩ := ih (hL.below (p := p) hltab hdeep _) fun l' hl' =>
      hrest l' ((List.dropWhile_sublist _).subset hl')
    rw [List.cons_append, readItems_cons_function hblank hp,
      takeWhile_append_cons_of_neg hout, dropWhile_append_cons_of_neg hout,
      hread, List.append_assoc]
    refine ⟨rfl,
      List.forall_mem_cons.2
      ⟨rfl, List.forall_mem_append.2 ⟨fun z hz => ?_, hin⟩⟩⟩
    obtain ⟨l', -, rfl⟩ := List.mem_map.1 hz
    rfl
  | case4 L l rest hl p hcontent p' ih =>
    obtain ⟨hltab, hrest⟩ := List.forall_mem_cons.1 hblock
    have hblank : l.2.isBlank = false := Bool.eq_false_iff.2 hl
    have hdeep := hL.lt_place l.1 hltab
    obtain ⟨hread, hin⟩ := ih (hL.below (p := p') hltab hdeep _) hrest
    rw [List.cons_append, readItems_cons_step hblank hcontent]
    refine ⟨congrArg (_ :: ·) hread, List.forall_mem_cons.2 ⟨?_, hin⟩⟩
    unfold standsIn
    rw [Bool.or_eq_true, decide_eq_true_iff]
    exact .inr hdeep

end Behind

/-! ## Reading the two scripts

The two scripts have the same lines up to the scope. They are read alike,
because a line is placed by what is above it and not by what follows. If one of
them is the header of a function, its body may reach to the end of the script,
and then it is the body that ends with the scope; if not, the function is done
with, and what follows it is read as if the lines of its body were not there
(`Beside.behind_function`).

One of the two scripts has no error by assumption, and this says of the scope
that it does not stand too deep. -/

/-- **The lines that differ**: one that stores a scope, the same without the
store, and one that says the name. The two that open the scope stand at the
same place and are indented alike; of the third only its form is known. -/
structure StoringLines (name : String) (s : ScopeForm) (a a' b : NumberedLine) :
    Prop where
  line_eq : a'.1 = a.1
  tabDepth_eq : a'.2.tabDepth = a.2.tabDepth
  stores : parseStatement a.2.tokens = .ok (.action (.storeScope name s))
  opens : parseStatement a'.2.tokens = .ok (.action (.scope s))
  names : parseStatement b.2.tokens = .ok (.action (.eval (.name name)))

/-- The indentations of lines, the nearest first. -/
def tabsAbove (lines : List NumberedLine) : List Nat :=
  (lines.map fun l => l.2.tabDepth).reverse

/-- The indentations above, with one more line. -/
theorem tabsAbove_cons (l : NumberedLine) (lines : List NumberedLine)
    (above : List Nat) :
    tabsAbove (l :: lines) ++ above = tabsAbove lines ++ l.2.tabDepth
    :: above := by
  unfold tabsAbove
  rw [List.map_cons, List.reverse_cons, List.append_assoc]
  rfl

section Reading

variable {a a' b : NumberedLine} {before block : List NumberedLine} {L : Layout}

/-- If one of the two lines is no error in its place, it is not too deep. -/
theorem StoringLines.depthOf_le (h : StoringLines name s a a' b)
    (herror : ((L.place a.1 a.2).map (stepOf a.1)).content.error? = none ∨
      ((L.place a'.1 a'.2).map (stepOf a'.1)).content.error? = none) :
    L.depthOf a.2.tabDepth ≤ L.openScopes := by
  obtain herror | herror := herror
  · obtain ⟨k, hk⟩ := exists_place_of_error? herror
    exact (Layout.le_of_place hk).1
  · obtain ⟨k, hk⟩ := exists_place_of_error? herror
    exact h.tabDepth_eq ▸ (Layout.le_of_place hk).1

/-- **The body of a function** that ends with such lines. The lines of a body
are read one by one, so the induction is on what comes before the three. Where
one of the two bodies has no error the lines that differ are as deep as they
are said to be. -/
theorem endsStored_readBody (h : StoringLines name s a a' b)
    (hbefore : ∀ l ∈ before, l.2.isBlank = false)
    (hblock : ∀ l ∈ block, a.2.tabDepth < l.2.tabDepth)
    (hbeside : Beside a.2.tabDepth b.2.tabDepth (tabsAbove before ++ L.above))
    (herror : (∀ x ∈ readBody L (before ++ a :: (block ++ [b])),
      x.content.error? = none) ∨
      ∀ x ∈ readBody L (before ++ a' :: block), x.content.error? = none) :
    EndsStored name s (readBody L (before ++ a :: (block ++ [b])))
      (readBody L (before ++ a' :: block)) := by
  induction before generalizing L with
  | nil =>
    have hle : L.depthOf a.2.tabDepth ≤ L.openScopes := by
      refine h.depthOf_le (herror.imp (fun herror => ?_) fun herror => ?_)
      · rw [List.nil_append,
          readBody_cons (isBlank_eq_false_of_parseStatement h.stores)] at herror
        exact (List.forall_mem_cons.1 herror).1
      · rw [List.nil_append,
          readBody_cons (isBlank_eq_false_of_parseStatement h.opens)] at herror
        exact (List.forall_mem_cons.1 herror).1
    have hle' : L.depthOf a'.2.tabDepth ≤ L.openScopes := h.tabDepth_eq ▸ hle
    let x : Placed Step :=
      ⟨.act (.storeScope name s), a.2.tabDepth, L.depthOf a.2.tabDepth, a.1⟩
    obtain ⟨hread, hin⟩ := readBody_append_line h.names
      (Layout.Inside.below_opened hbeside x rfl rfl) hblock
    rw [List.nil_append, List.nil_append, readBody_readsActions h.stores hle,
      readBody_readsActions h.opens hle', h.tabDepth_eq, h.line_eq]
    exact hread ▸ .here (x := x) rfl hin rfl rfl
  | cons l before ih =>
    obtain ⟨hl, hbefore⟩ := List.forall_mem_cons.1 hbefore
    rw [tabsAbove_cons] at hbeside
    rw [List.cons_append, List.cons_append, readBody_cons hl,
      readBody_cons hl] at herror ⊢
    exact .cons
      _ (ih hbefore hbeside
          (herror.imp (fun herror => (List.forall_mem_cons.1 herror).2)
            fun herror => (List.forall_mem_cons.1 herror).2))

/-- **Scripts that store a scope in the end**, in the script itself or in a
function, and scripts that end with the scope. What stands in front of the
difference is the same in both. The lines of a function have left empty lines
in its place, and there is one more of them if the name is among them. -/
inductive ItemsEndStored (name : String) (s : ScopeForm) :
    List (Placed Item) → List (Placed Item) → Prop
  | here {x y : Placed Step} {block : List (Placed Item)}
      (hx : x.content = .act (.storeScope name s))
      (hblock : ∀ z ∈ block, standsIn x.depth (z.map Item.toStep) = true)
      (hy : y.content = .act (.eval (.name name)))
      (hdepth : y.depth = x.depth) :
      ItemsEndStored name s (x.map .step :: (block ++ [y.map .step]))
        (x.map (fun _ => .step (.act (.scope s))) :: block)
  | function {α : Type} (x : Placed α) (header : Header)
      {body body' : List (Placed Step)} (hbody : EndsStored name s body body')
      (lines lines' : List NumberedLine) :
      ItemsEndStored name s
        (x.map (fun _ => .function ⟨header.name, header.params, body⟩) ::
          lines.map (emptyLine (.step .blank)))
        (x.map (fun _ => .function ⟨header.name, header.params, body'⟩) ::
          lines'.map (emptyLine (.step .blank)))
  | cons (x : Placed Item) {l l' : List (Placed Item)}
      (rest : ItemsEndStored name s l l') :
      ItemsEndStored name s (x :: l) (x :: l')

/-- Before a line that does not belong to it a list is cut as it is without the
line. The condition is asked only if the list is used up, since otherwise the
cut is made before. -/
theorem cut_append_cons {α : Type} {f : α → Bool} {l : List α} {c : α}
    (h : (∀ x ∈ l, f x = true) → f c = false) (l' : List α) :
    (l ++ c :: l').takeWhile f = l.takeWhile f ∧
      (l ++ c :: l').dropWhile f = l.dropWhile f ++ c :: l' := by
  induction l with
  | nil =>
    have hc := h nofun
    exact ⟨takeWhile_append_cons_of_neg hc [] l',
      dropWhile_append_cons_of_neg hc [] l'⟩
  | cons x l ih =>
    cases hx : f x with
    | true =>
      obtain ⟨htake, hdrop⟩ := ih fun hl => h (List.forall_mem_cons.2 ⟨hx, hl⟩)
      simp only [List.cons_append, List.takeWhile_cons_of_pos hx,
        List.dropWhile_cons_of_pos hx, htake, hdrop, and_self]
    | false =>
      simp only [List.cons_append, List.takeWhile_cons, List.dropWhile_cons, hx,
        Bool.false_eq_true, if_false, and_self]

/-- More items in front are the same on both sides. -/
theorem ItemsEndStored.append {l l' : List (Placed Item)}
    (h : ItemsEndStored name s l l') (front : List (Placed Item)) :
    ItemsEndStored name s (front ++ l) (front ++ l') := by
  induction front with
  | nil => exact h
  | cons x front ih => exact .cons x ih

/-- What belongs to a function is indented further. -/
theorem lt_of_belongsTo {tab : Nat} {l : NumberedLine}
    (hl : l.2.isBlank = false) (h : belongsTo tab l = true) :
    tab < l.2.tabDepth := by
  unfold belongsTo at h
  rwa [hl, Bool.false_or, decide_eq_true_iff] at h

/-- And what is indented further belongs to it, empty or not. -/
theorem belongsTo_of_lt {tab : Nat} {l : NumberedLine}
    (h : tab < l.2.tabDepth) :
    belongsTo tab l = true := by
  unfold belongsTo
  rw [Bool.or_eq_true, decide_eq_true_iff]
  exact .inr h

/-- **The lines that differ belong to a function** that they are indented
below, and the block between them as well. So whether the header of a function
is followed by the one script or the other, its body ends at the same place,
behind all of them. -/
theorem StoringLines.forall_belongsTo {tab : Nat}
    (h : StoringLines name s a a' b)
    (hbelongs : ∀ x ∈ before, belongsTo tab x = true) (hblock : ∀ l ∈ block,
      a.2.tabDepth < l.2.tabDepth) (hlt : tab < a.2.tabDepth)
    (hlt' : tab < b.2.tabDepth) :
    (∀ x ∈ before ++ a :: (block ++ [b]), belongsTo tab x = true) ∧
      ∀ x ∈ before ++ a' :: block, belongsTo tab x = true := by
  have hblock' : ∀ x ∈ block, belongsTo tab x = true := fun x hx =>
    belongsTo_of_lt (Nat.lt_trans hlt (hblock x hx))
  simp only [List.forall_mem_append, List.forall_mem_cons, List.not_mem_nil,
    false_imp_iff, implies_true, and_true]
  exact ⟨⟨hbelongs, belongsTo_of_lt hlt, hblock', belongsTo_of_lt hlt'⟩,
    hbelongs, belongsTo_of_lt (h.tabDepth_eq ▸ hlt), hblock'⟩

/-- **Behind a function** the lines that stood beside each other do so still,
though the lines of the function are no longer among those above. If all lines
in front of them belong to the function, `hcut` says that the lines that differ
do not; otherwise a line between has ended it. -/
theorem Beside.behind_function {tab tab' first : Nat} {above : List Nat}
    (h : Beside tab tab' (tabsAbove before ++ first :: above))
    (hbefore : ∀ l ∈ before, l.2.isBlank = false)
    (hcut : (∀ x ∈ before, belongsTo first x = true) → tab ≤ first) :
    Beside tab tab'
    (tabsAbove (before.dropWhile (belongsTo first)) ++ first :: above) := by
  have hsplit : tabsAbove (before.dropWhile (belongsTo first)) ++
      tabsAbove (before.takeWhile (belongsTo first)) = tabsAbove before := by
    unfold tabsAbove
    rw [← List.reverse_append, ← List.map_append,
      List.takeWhile_append_dropWhile]
  have htaken : ∀ u ∈ tabsAbove (before.takeWhile (belongsTo first)),
      first < u := fun u hu => by
    obtain ⟨x, hx, rfl⟩ := List.mem_map.1 (List.mem_reverse.1 hu)
    exact lt_of_belongsTo (hbefore x ((List.takeWhile_sublist _).subset hx))
      (List.all_eq_true.1 List.all_takeWhile x hx)
  refine Beside.skip ?_ htaken ?_
  · rw [← List.append_assoc, hsplit]
    exact h
  · cases hkept : before.dropWhile (belongsTo first) with
    | nil => exact .inl (hcut (List.dropWhile_eq_nil_iff.1 hkept))
    | cons l kept =>
      refine .inr ⟨l.2.tabDepth,
        List.mem_reverse.2 (List.mem_map_of_mem List.mem_cons_self), ?_⟩
      have hl : ¬belongsTo first l = true := by
        have hhead := List.head?_dropWhile_not (belongsTo first) before
        rw [hkept] at hhead
        simpa using hhead
      exact Nat.le_of_not_lt fun hlt => hl (belongsTo_of_lt hlt)

/-- A line that is an action is no header, wherever it stands. -/
theorem not_function_of_parseStatement {l : NumberedLine} {action : Action}
    (h : parseStatement l.2.tokens = .ok (.action action)) (header : Header) :
    (L.place l.1 l.2).content ≠ .ok (.function header) := by
  intro hp
  have hparse := (Layout.le_of_place hp).2
  rw [h] at hparse
  cases hparse

/-- **Lines that begin with the scope.** Nothing stands in front of them, so
this is where the induction over the lines in front ends. -/
theorem itemsEndStored_scope (h : StoringLines name s a a' b)
    (hblock : ∀ l ∈ block, a.2.tabDepth < l.2.tabDepth)
    (hbeside : Beside a.2.tabDepth b.2.tabDepth L.above)
    (herror : (∀ x ∈ (readItems L (a :: (block ++ [b]))).flatMap Item.allSteps,
        x.content.error? = none) ∨
      ∀ x ∈ (readItems L (a' :: block)).flatMap Item.allSteps,
        x.content.error? = none) :
    ItemsEndStored name s (readItems L (a :: (block ++ [b])))
    (readItems L (a' :: block)) := by
  have hle : L.depthOf a.2.tabDepth ≤ L.openScopes := by
    have ha := isBlank_eq_false_of_parseStatement h.stores
    have ha' := isBlank_eq_false_of_parseStatement h.opens
    rw [readItems_cons_step ha (not_function_of_parseStatement h.stores),
      readItems_cons_step ha'
      (not_function_of_parseStatement h.opens)] at herror
    refine h.depthOf_le (herror.imp (fun herror => ?_) fun herror => ?_)
    · exact herror _ (List.mem_append_left _ List.mem_cons_self)
    · exact herror _ (List.mem_append_left _ List.mem_cons_self)
  have hle' : L.depthOf a'.2.tabDepth ≤ L.openScopes := h.tabDepth_eq ▸ hle
  let x : Placed Step :=
    ⟨.act (.storeScope name s), a.2.tabDepth, L.depthOf a.2.tabDepth, a.1⟩
  let y : Placed Step := ⟨.act (.eval (.name name)), b.2.tabDepth, x.depth, b.1⟩
  obtain ⟨hread, hin⟩ := readItems_append_line h.names
    (Layout.Inside.below_opened hbeside x rfl rfl) hblock
  rw [readItems_readsActions h.stores hle, readItems_readsActions h.opens hle',
    h.tabDepth_eq, h.line_eq]
  exact hread ▸ .here (x := x) (y := y) rfl hin rfl rfl

/-- **Lines that begin with a function** that all the others belong to: it is
its body that ends with the scope. The function is the same in both scripts but
for its body, and there the lines stand as they would in a script. -/
theorem itemsEndStored_function (h : StoringLines name s a a' b)
    {l : NumberedLine} {header : Header} (hl : l.2.isBlank = false)
    (hp : (L.place l.1 l.2).content = .ok (.function header))
    (hbefore : ∀ x ∈ before, x.2.isBlank = false)
    (hblock : ∀ x ∈ block, a.2.tabDepth < x.2.tabDepth)
    (hbeside : Beside a.2.tabDepth b.2.tabDepth
      (tabsAbove before ++ l.2.tabDepth :: L.above))
    (hbelongs : ∀ x ∈ before, belongsTo l.2.tabDepth x = true)
    (hlt : l.2.tabDepth < a.2.tabDepth)
    (herror :
      (∀ x ∈ (readItems L (l :: (before ++ a :: (block ++ [b])))).flatMap
        Item.allSteps, x.content.error? = none) ∨
      ∀ x ∈ (readItems L (l :: (before ++ a' :: block))).flatMap Item.allSteps,
        x.content.error? = none) :
    ItemsEndStored name s (readItems L (l :: (before ++ a :: (block ++ [b]))))
      (readItems L (l :: (before ++ a' :: block))) := by
  have hlt' : l.2.tabDepth < b.2.tabDepth := by
    refine hbeside.lt (fun u hu => ?_) hlt
    obtain ⟨x, hx, rfl⟩ := List.mem_map.1 (List.mem_reverse.1 hu)
    exact lt_of_belongsTo (hbefore x hx) (hbelongs x hx)
  obtain ⟨hall, hall'⟩ := h.forall_belongsTo hbelongs hblock hlt hlt'
  have hnil : readItems (L.below (L.place l.1 l.2) false) [] = [] := by
    rw [readItems]
  rw [readItems_cons_function hl hp, readItems_cons_function hl hp,
    List.takeWhile_eq_self_iff.2 hall, List.dropWhile_eq_nil_iff.2 hall,
    List.takeWhile_eq_self_iff.2 hall', List.dropWhile_eq_nil_iff.2 hall', hnil,
    List.append_nil,
    List.append_nil] at herror ⊢
  have hbeside' :
      Beside a.2.tabDepth b.2.tabDepth (tabsAbove before ++ []) := by
    rw [List.append_nil]
    exact hbeside.of_append
  refine .function _ header (endsStored_readBody h hbefore hblock hbeside' ?_)
    _ _
  exact herror.imp (fun herror x hx => herror x (List.mem_append_left _ hx))
    fun herror x hx => herror x (List.mem_append_left _ hx)

/-- **A script that ends with such lines**, in itself or in a function. The
induction is on the number of lines in front of the scope, since reading a
function goes on behind its body, where there are fewer. -/
theorem itemsEndStored_readItems (h : StoringLines name s a a' b)
    (hbefore : ∀ l ∈ before, l.2.isBlank = false)
    (hblock : ∀ l ∈ block, a.2.tabDepth < l.2.tabDepth)
    (hbeside : Beside a.2.tabDepth b.2.tabDepth (tabsAbove before ++ L.above))
    (herror :
      (∀ x ∈ (readItems L (before ++ a :: (block ++ [b]))).flatMap
        Item.allSteps, x.content.error? = none) ∨
      ∀ x ∈ (readItems L (before ++ a' :: block)).flatMap Item.allSteps,
        x.content.error? = none) :
    ItemsEndStored name s (readItems L (before ++ a :: (block ++ [b])))
      (readItems L (before ++ a' :: block)) := by
  -- By the length, since what is behind a function is a part of the lines.
  induction hn : before.length using Nat.strongRecOn generalizing before L with
  | _ n ih =>
    cases before with
    | nil => exact itemsEndStored_scope h hblock hbeside herror
    | cons l before =>
      obtain ⟨hl, hbefore⟩ := List.forall_mem_cons.1 hbefore
      rw [tabsAbove_cons] at hbeside
      rw [List.cons_append, List.cons_append] at herror ⊢
      by_cases hfunction : ∃ header,
        (L.place l.1 l.2).content = .ok (.function header)
      · obtain ⟨header, hp⟩ := hfunction
        by_cases hall : (∀ x ∈ before, belongsTo l.2.tabDepth x = true) ∧
          l.2.tabDepth < a.2.tabDepth
        · exact itemsEndStored_function h hl hp hbefore hblock hbeside hall.1
            hall.2 herror
        · -- The function ends before the lines that are different.
          have hcut : (∀ x ∈ before, belongsTo l.2.tabDepth x = true) →
              a.2.tabDepth ≤ l.2.tabDepth := fun hbelongs =>
            Nat.le_of_not_lt fun hlt => hall ⟨hbelongs, hlt⟩
          have ha := isBlank_eq_false_of_parseStatement h.stores
          have ha' := isBlank_eq_false_of_parseStatement h.opens
          obtain ⟨htake, hdrop⟩ := cut_append_cons
            (fun hbelongs => belongsTo_eq_false ha (hcut hbelongs))
            (block ++ [b])
          obtain ⟨htake', hdrop'⟩ := cut_append_cons
            (fun hbelongs =>
              belongsTo_eq_false ha' (h.tabDepth_eq ▸ hcut hbelongs)) block
          rw [readItems_cons_function hl hp, readItems_cons_function hl hp,
            htake, hdrop, htake', hdrop'] at herror ⊢
          have hlength :
              (before.dropWhile (belongsTo l.2.tabDepth)).length < n :=
            hn ▸ Nat.lt_succ_of_le (List.dropWhile_sublist _).length_le
          refine ItemsEndStored.append (ih _ hlength
            (fun x hx => hbefore x ((List.dropWhile_sublist _).subset hx))
            (hbeside.behind_function hbefore hcut) ?_ rfl) _
          simp only [List.cons_append, List.flatMap_cons, List.flatMap_append,
            List.forall_mem_append] at herror
          exact herror.imp (fun herror => herror.2.2) fun herror => herror.2.2
      · have hstep := fun header hp => hfunction ⟨header, hp⟩
        rw [readItems_cons_step hl hstep,
          readItems_cons_step hl hstep] at herror ⊢
        simp only [List.flatMap_cons, List.forall_mem_append] at herror
        exact .cons _ (ih _ (hn ▸ Nat.lt_succ_self _) hbefore hbeside
          (herror.imp And.right And.right) rfl)

end Reading

/-! ## What is read

Programs that differ so have the same diagnostic, and an exit in neither or in
both; their functions come to the same. So the two are alike, as runs of lines
that end with a stored scope are. -/

namespace ItemsEndStored

variable {l l' : List (Placed Item)}

/-- **What is true of all steps of the one** is true of all steps of the other,
if it is true of those that are different. The steps of functions are among
them, and so are the empty lines that they leave behind. -/
theorem forall_iff (h : ItemsEndStored name s l l') {P : Placed Step → Prop}
    (hblank : ∀ x, x.content = .blank → P x)
    (hscope : ∀ x, x.content = .act (.scope s) → P x)
    (hstored : ∀ x, x.content = .act (.storeScope name s) → P x)
    (hname : ∀ x, x.content = .act (.eval (.name name)) → P x) :
    (∀ x ∈ l.flatMap Item.allSteps, P x) ↔ ∀ x ∈ l'.flatMap Item.allSteps,
    P x := by
  have hempty : ∀ lines : List NumberedLine, ∀ x ∈ (lines.map
      (emptyLine (Item.step .blank))).flatMap Item.allSteps,
      P x := fun lines x hx => by
    obtain ⟨z, hz, hx⟩ := List.mem_flatMap.1 hx
    obtain ⟨l, -, rfl⟩ := List.mem_map.1 hz
    obtain rfl := List.mem_singleton.1 hx
    exact hblank _ rfl
  induction h with
  | here hx _ hy =>
    simp only [List.flatMap_cons, List.flatMap_append, List.flatMap_nil,
      List.forall_mem_append]
    constructor
    · rintro ⟨-, hblock, -⟩
      exact ⟨List.forall_mem_singleton.2 (hscope _ rfl), hblock⟩
    · rintro ⟨-, hblock⟩
      exact ⟨List.forall_mem_singleton.2 (hstored _ hx), hblock,
        List.forall_mem_singleton.2 (hname _ hy), nofun⟩
  | function x header hbody lines lines' =>
    simp only [List.flatMap_cons, List.forall_mem_append]
    have hiff := hbody.forall_iff hscope hstored hname
    exact ⟨fun h => ⟨hiff.1 h.1, hempty lines'⟩,
      fun h => ⟨hiff.2 h.1, hempty lines⟩⟩
  | cons x _ ih =>
    rw [List.flatMap_cons, List.flatMap_cons, List.forall_mem_append,
      List.forall_mem_append]
    exact and_congr_right fun _ => ih

/-- The steps of the script itself. If the difference is in the body of a
function, the steps of the two say the same. -/
theorem steps (h : ItemsEndStored name s l l') :
    EndsStored name s (stepsOf l) (stepsOf l') ∨
      spokenSteps (stepsOf l) = spokenSteps (stepsOf l') := by
  have hempty : ∀ lines : List NumberedLine,
      spokenSteps (stepsOf (lines.map (emptyLine (Item.step .blank))))
      = [] := fun lines => by
    refine List.filter_eq_nil_iff.2 fun z hz => ?_
    obtain ⟨x, hx, rfl⟩ := List.mem_map.1 hz
    obtain ⟨l, -, rfl⟩ := List.mem_map.1 hx
    exact nofun
  induction h with
  | @here x y block hx hblock hy hdepth =>
    have hblock' : ∀ z ∈ stepsOf block,
        standsIn x.depth z = true := fun z hz => by
      obtain ⟨z', hz', rfl⟩ := List.mem_map.1 hz
      exact hblock z' hz'
    have hsplit : stepsOf (block ++ [y.map .step]) = stepsOf block ++ [y] :=
      List.map_append
    refine .inl ?_
    show EndsStored name s (x :: stepsOf (block ++ [y.map .step])) _
    rw [hsplit]
    exact .here hx hblock' hy hdepth
  | function x header hbody lines lines' =>
    exact .inr ((hempty lines).trans (hempty lines').symm)
  | cons x _ ih =>
    refine ih.imp (.cons _) fun hsame => ?_
    unfold spokenSteps stepsOf at hsame ⊢
    rw [List.map_cons, List.map_cons, List.filter_cons, List.filter_cons, hsame]

/-- **The functions come to the same.** A function in front of the lines that
differ is the same in both programs; one that the lines belong to is like the
other one by its body. -/
theorem functions (h : ItemsEndStored name s l l') (host : Host σ)
    (hbodies : ∀ d ∈ l.filterMap (fun x => x.content.function?),
      IsBody d.body) :
    List.Forall₂ (FunctionDef.Like host)
      (l.filterMap fun x => x.content.function?)
      (l'.filterMap fun x => x.content.function?) := by
  have hempty : ∀ lines : List NumberedLine,
      (lines.map (emptyLine (Item.step .blank))).filterMap
      (fun x => x.content.function?) = [] := fun lines => by
    rw [List.filterMap_map]
    exact List.filterMap_eq_nil_iff.2 fun _ _ => rfl
  induction h with
  | @here x y block =>
    have hname : [y.map Item.step].filterMap (fun x => x.content.function?)
        = [] := rfl
    have hblock :
        (block ++ [y.map Item.step]).filterMap (fun x => x.content.function?)
        = block.filterMap fun x => x.content.function? := by
      rw [List.filterMap_append, hname, List.append_nil]
    show List.Forall₂
      _ ((block ++ [y.map Item.step]).filterMap fun x => x.content.function?)
          (block.filterMap fun x => x.content.function?)
    rw [hblock]
    exact List.forall₂_same.2 fun d _ => .refl host d
  | @function _ x header body body' hbody lines lines' =>
    have hd := hbodies ⟨header.name, header.params, body⟩ List.mem_cons_self
    have hlike : FunctionDef.Like host ⟨header.name, header.params, body⟩
      ⟨header.name, header.params, body'⟩ :=
      ⟨rfl, rfl, hbody.leaveAlike hd host⟩
    refine .cons hlike ?_
    rw [hempty, hempty]
    exact .nil
  | cons x _ ih =>
    rw [List.filterMap_cons] at hbodies ⊢
    rw [List.filterMap_cons]
    cases hx : x.content.function? with
    | none =>
      rw [hx] at hbodies
      exact ih hbodies
    | some d =>
      rw [hx] at hbodies
      exact .cons (.refl host d) (ih (List.forall_mem_cons.1 hbodies).2)

/-- **Programs that store a scope in the end** come to the same as those that
end with it. Either the lines that differ are among those of the script itself,
or they are in a function and the script's own lines are the same. -/
theorem like {p p' : Program}
    (h : ItemsEndStored name s p.statements p'.statements)
    (hsteps : IsBody p.steps) (hbodies : ∀ d ∈ p.functions, IsBody d.body)
    (host : Host σ) :
    p.Like host p' where
  functions := h.functions host hbodies
  steps := by
    obtain hends | hspoken := h.steps
    · exact hends.leaveAlike hsteps host
    · intro calls _ input locals w v
      have hlines : ∀ l,
          Drive.lines host calls none (spokenSteps l)
          = Drive.lines host calls none l :=
        Drive.lines_spokenSteps
      rw [← hlines p.steps, ← hlines p'.steps]
      exact hspoken ▸ Iff.rfl

end ItemsEndStored

/-! ## Scripts

Finally the scripts are given by what their lines say. Reading a line and
finding its tokens is put together with the theorem on the lines that were
read. -/

/-- A name on a line of its own is said. -/
theorem parseStatement_name (hname : isIdentifier name = true) :
    parseStatement [name] = .ok (.action (.eval (.name name))) := by
  have hexpr : parseExpr [name] = .ok (.name name) := parseExpr_eq_ok_iff.2
    ⟨List.cons_ne_nil _ _, _,
      parseAlternation_of_nil (readOperand_name hname nofun), rfl⟩
  exact LineForm.Written.parseStatement (.expr hexpr)

/-- A scope is stored by an arrow in front of it. -/
theorem parseStatement_storeScope {arrow : Token} {ts : List Token}
    (hname : isIdentifier name = true) (harrow : arrow ∈ arrows)
    (hscope : parseStatement ts = .ok (.action (.scope s))) :
    parseStatement (name :: arrow :: ts)
    = .ok (.action (.storeScope name s)) := by
  have hwritten := written_of_parseStatement hscope
  cases hwritten with
  | scope h =>
    exact LineForm.Written.parseStatement (.storeScope hname harrow h)

/-- A script without an exit has none without its numbers. The numbers and the
empty lines are all that is taken away, and neither is an exit. -/
theorem stays_ofSaid {lines : List NumberedLine}
    (h : ∀ x ∈ (Program.mk (readItems {} lines)).allSteps,
      x.content ≠ .act .exit) :
    ∀ x ∈ (Program.ofSaid (saidLines lines)).allSteps,
      x.content ≠ .act .exit := by
  intro x hx hexit
  have hspoken : x ∈ spokenSteps (Program.ofSaid (saidLines lines)).allSteps :=
    List.mem_filter.2 ⟨hx, by rw [hexit]; rfl⟩
  rw [Program.spokenSteps_allSteps_of_spoken
    (Program.spoken_ofSaid lines)] at hspoken
  obtain ⟨y, hy, rfl⟩ := List.mem_map.1 hspoken
  refine h y (List.mem_filter.1 hy).1 ?_
  obtain ⟨_ | action | e, tab, depth, line⟩ := y
  · cases hexit
  · exact hexit
  · cases hexit

section Scripts

variable {lines lines' : List NumberedLine}
  {before block : List (Nat × List Token)} {tab tab' : Nat} {arrow : Token}
  {ts : List Token}

/-- Without its numbers the script is read as it should be. -/
theorem itemsEndStored_ofSaid (hname : isIdentifier name = true)
    (harrow : arrow ∈ arrows)
    (hscope : parseStatement ts = .ok (.action (.scope s)))
    (hblock : ∀ l ∈ block, tab < l.1)
    (hsaid : saidLines lines = before ++ (tab, name :: arrow :: ts)
      :: (block ++ [(tab', [name])]))
    (hsaid' : saidLines lines' = before ++ (tab, ts) :: block)
    (hdepth :
      depthAmong tab' ((before ++ (tab, ts) :: block).map Prod.fst).reverse =
        depthAmong tab (before.map Prod.fst).reverse)
    (hdiag : (Program.ofSaid (saidLines lines)).diagnostic = none ∨
      (Program.ofSaid (saidLines lines')).diagnostic = none) :
    ItemsEndStored name s (Program.ofSaid (saidLines lines)).statements
      (Program.ofSaid (saidLines lines')).statements := by
  let a := unnumbered (tab, name :: arrow :: ts)
  let a' := unnumbered (tab, ts)
  let b := unnumbered (tab', [name])
  have hlines : StoringLines name s a a' b :=
    ⟨rfl, rfl, parseStatement_storeScope hname harrow hscope, hscope,
      parseStatement_name hname⟩
  have hbefore : ∀ l ∈ before.map unnumbered,
      l.2.isBlank = false := fun l hl => by
    obtain ⟨said, hbefore, rfl⟩ := List.mem_map.1 hl
    have hmem : said ∈ saidLines lines := hsaid ▸ List.mem_append_left _ hbefore
    obtain ⟨l', hl', rfl⟩ := List.mem_map.1 hmem
    have hspoken := (List.mem_filter.1 hl').2
    rwa [Bool.not_eq_true'] at hspoken
  have hblock' : ∀ l ∈ block.map unnumbered,
      tab < l.2.tabDepth := fun l hl => by
    obtain ⟨said, hsaid, rfl⟩ := List.mem_map.1 hl
    exact hblock said hsaid
  have htabs : tabsAbove (before.map unnumbered) ++ ({} : Layout).above =
      (before.map Prod.fst).reverse := by
    unfold tabsAbove
    rw [List.map_map]
    exact List.append_nil _
  have hbeside : Beside tab tab' (before.map Prod.fst).reverse := by
    rw [List.map_append, List.reverse_append, List.map_cons, List.reverse_cons,
      List.append_assoc] at hdepth
    refine beside_of_depthAmong_append (fun u hu => ?_) hdepth
    obtain ⟨l, hl, rfl⟩ := List.mem_map.1 (List.mem_reverse.1 hu)
    exact hblock l hl
  have hread : (saidLines lines).map unnumbered =
      before.map unnumbered ++ a :: (block.map unnumbered ++ [b]) := by
    rw [hsaid, List.map_append, List.map_cons, List.map_append]
    rfl
  have hread' : (saidLines lines').map unnumbered =
      before.map unnumbered ++ a' :: block.map unnumbered := by
    rw [hsaid', List.map_append, List.map_cons]
  simp only [Program.diagnostic_eq_none_iff, Program.allSteps, Program.ofSaid,
    hread, hread'] at hdiag ⊢
  exact itemsEndStored_readItems hlines hbefore hblock' (htabs ▸ hbeside) hdiag

/-- **A script that stores a scope in the end** and then says the name, and the
script that ends with the scope, come to the same. The scripts are given by
what they say line by line, with the indentation of each, so that comments and
empty lines may stand anywhere in either. -/
theorem like_of_scope_stored (hname : isIdentifier name = true)
    (harrow : arrow ∈ arrows)
    (hscope : parseStatement ts = .ok (.action (.scope s)))
    (hblock : ∀ l ∈ block, tab < l.1)
    (hsaid : saidLines lines = before ++ (tab, name :: arrow :: ts)
      :: (block ++ [(tab', [name])]))
    (hsaid' : saidLines lines' = before ++ (tab, ts) :: block)
    (hdepth :
      depthAmong tab' ((before ++ (tab, ts) :: block).map Prod.fst).reverse =
        depthAmong tab (before.map Prod.fst).reverse)
    (hdiag : (Program.mk (readItems {} lines)).diagnostic = none ∨
      (Program.mk (readItems {} lines')).diagnostic = none)
    (hstays : (∀ x ∈ (Program.mk (readItems {} lines)).allSteps,
      x.content ≠ .act .exit) ∨
      ∀ x ∈ (Program.mk (readItems {} lines')).allSteps,
        x.content ≠ .act .exit) :
    (Program.mk (readItems {} lines)).diagnostic = none ∧
      (Program.mk (readItems {} lines')).diagnostic = none ∧
      ∀ {σ : Type} (host : Host σ),
        (Program.ofSaid (saidLines lines)).Like host
        (Program.ofSaid (saidLines lines')) := by
  rw [← Program.diagnostic_ofSaid_eq_none_iff,
    ← Program.diagnostic_ofSaid_eq_none_iff] at hdiag ⊢
  have hitems :=
    itemsEndStored_ofSaid hname harrow hscope hblock hsaid hsaid' hdepth hdiag
  have hclean : (Program.ofSaid (saidLines lines)).diagnostic = none ↔
      (Program.ofSaid (saidLines lines')).diagnostic = none := by
    rw [Program.diagnostic_eq_none_iff, Program.diagnostic_eq_none_iff]
    refine hitems.forall_iff ?_ ?_ ?_ ?_
    all_goals
      intro x hx
      rw [hx]
      rfl
  have hdiag' := hdiag.elim id hclean.2
  have hstays' : ∀ x ∈ (Program.ofSaid (saidLines lines)).allSteps,
      x.content ≠ .act .exit := by
    refine hstays.elim stays_ofSaid fun hstays =>
      (hitems.forall_iff ?_ ?_ ?_ ?_).2 (stays_ofSaid hstays)
    all_goals
      intro x hx hexit
      rw [hx] at hexit
      cases hexit
  obtain ⟨hsteps, hbodies⟩ := Program.isBody_readItems hdiag' fun x hx hexit =>
    absurd hexit (hstays' x hx)
  exact ⟨hdiag', hclean.1 hdiag', fun host => hitems.like hsteps hbodies host⟩

end Scripts

/-! ## A script that stores a scope

A filter whose elements are kept where they are true, stored and said. It is
the input of the witness, and small enough to be read by evaluation. -/

/-- Stores those elements that are true, and says them. -/
def storedFilter : Program :=
  ⟨[⟨.step (.act (.storeScope "y" { kind := .filter })), 0, 0, 1⟩,
    ⟨.step (.act (.eval .stream)), 1, 1, 2⟩,
    ⟨.step (.act (.eval (.name "y"))), 0, 0, 3⟩]⟩

/-- The same without storing them. -/
def plainFilter : Program :=
  ⟨[⟨.step (.act (.scope { kind := .filter })), 0, 0, 1⟩,
    ⟨.step (.act (.eval .stream)), 1, 1, 2⟩]⟩

theorem parseStatement_filter :
    parseStatement ["filter"] = .ok (.action (.scope { kind := .filter })) :=
  LineForm.Written.parseStatement (.scope (.bare .filter))

/-- Both scripts in tokens, and what is read of them. -/
theorem ofScript_storedFilter :
    lexScript "y << filter\n stream\ny" = .ok
      [(1, ⟨0, ["y", "<<", "filter"], "y << filter"⟩),
        (2, ⟨1, ["stream"], " stream"⟩),
        (3, ⟨0, ["y"], "y"⟩)] ∧
    lexScript "filter\n stream" = .ok
      [(1, ⟨0, ["filter"], "filter"⟩), (2, ⟨1, ["stream"], " stream"⟩)] ∧
    Program.ofScript "y << filter\n stream\ny" = .ok storedFilter ∧
    Program.ofScript "filter\n stream" = .ok plainFilter := by
  have hlex : lexScript "y << filter\n stream\ny" = .ok
      [(1, ⟨0, ["y", "<<", "filter"], "y << filter"⟩),
        (2, ⟨1, ["stream"], " stream"⟩),
        (3, ⟨0, ["y"], "y"⟩)] := Act.toOption_eq_some_iff.1 (by decide +kernel)
  have hlex' : lexScript "filter\n stream" = .ok
      [(1, ⟨0, ["filter"], "filter"⟩), (2, ⟨1, ["stream"], " stream"⟩)] :=
      Act.toOption_eq_some_iff.1 (by decide +kernel)
  have hstored : parseStatement ["y", "<<", "filter"]
      = .ok (.action (.storeScope "y" { kind := .filter })) :=
    parseStatement_storeScope (by decide) (by decide) parseStatement_filter
  have hread : readItems {} [(1, ⟨0, ["y", "<<", "filter"], "y << filter"⟩),
      (2, ⟨1, ["stream"], " stream"⟩), (3, ⟨0, ["y"], "y"⟩)]
      = storedFilter.statements := by
    rw [readItems_readsActions hstored (by decide),
      readItems_readsActions parseStatement_stream (by decide),
      readItems_readsActions (parseStatement_name (by decide)) (by decide),
      readItems]
    rfl
  have hread' :
      readItems {} [(1, ⟨0, ["filter"], "filter"⟩),
        (2, ⟨1, ["stream"], " stream"⟩)] = plainFilter.statements := by
    rw [readItems_readsActions parseStatement_filter (by decide),
      readItems_readsActions parseStatement_stream (by decide), readItems]
    rfl
  exact ⟨hlex, hlex',
    Program.ofScript_eq_ok_iff.2 ⟨_, hlex, congrArg Program.mk hread.symm⟩,
    Program.ofScript_eq_ok_iff.2 ⟨_, hlex', congrArg Program.mk hread'.symm⟩⟩

/-! ## Stored scopes

The theorem has two parts. The first compares whole scripts, of which one ends
with the name and the other does not store anything. The second looks at a
single leaf, wherever in a script a scope is stored, and says what the leaf is
when the scope is closed. -/

/-- **A stored scope is the scope without its effect on the stream.** A script
that ends with a scope stored under a name, its block, and the name as deep as
the scope, comes to the same output as the script that ends with the scope and
its block, or both fail. And wherever a scope is stored, each leaf that it was
opened on is as it was when the scope is closed, but for the name: this is
bound to what the scope alone would have put in the stream of the leaf, and
found wherever else it was bound. -/
theorem stored_scopes_agree :
    (∀ {script script' : String} {lines lines' : List NumberedLine}
      {before block : List (Nat × List Token)} {tab tab' : Nat}
      {name arrow : Token} {ts : List Token} {s : ScopeForm},
      lexScript script = .ok lines → lexScript script' = .ok lines' →
      isIdentifier name = true → arrow ∈ arrows →
      parseStatement ts = .ok (.action (.scope s)) → (∀ l ∈ block, tab < l.1) →
      saidLines lines =
        before ++ (tab, name :: arrow :: ts) :: (block ++ [(tab', [name])]) →
      saidLines lines' = before ++ (tab, ts) :: block →
      depthAmong tab' ((before ++ (tab, ts) :: block).map Prod.fst).reverse =
        depthAmong tab (before.map Prod.fst).reverse →
      ∃ p p', Program.ofScript script = .ok p ∧
        Program.ofScript script' = .ok p' ∧
        (p.diagnostic = none ∨ p'.diagnostic = none →
        (∀ x ∈ p.allSteps, x.content ≠ .act .exit) ∨
        (∀ x ∈ p'.allSteps, x.content ≠ .act .exit) →
        p.diagnostic = none ∧ p'.diagnostic = none ∧
        ∀ {σ : Type} {host : Host σ}, host.Steady →
        ∀ {globals : Bindings Value} {input : Value} {w w' : World σ},
          ((p.run host globals input).run w).2.generation = w.generation + 1 →
          ((p'.run host globals input).run w').2.generation
          = w'.generation + 1 →
          (∃ v, p.CompletesWith host globals input w v ∧
            p'.CompletesWith host globals input w' v) ∨
          (p.Fails host globals input w ∧ p'.Fails host globals input w'))) ∧
    ∀ {script : String} {p : Program}, Program.ofScript script = .ok p →
      p.diagnostic = none →
      (∀ x ∈ p.allSteps, x.content ≠ .act .exit) →
      ∀ {before block behind : List (Placed Step)} {x : Placed Step} {name : String}
        {s : ScopeForm},
      before ++ x :: (block ++ behind)
      ∈ p.steps :: p.functions.map FunctionDef.body →
      x.content = .act (.storeScope name s) →
      (∀ z ∈ block, standsIn x.depth z = true) →
      ∀ {σ : Type} {host : Host σ}, host.Steady →
      ∀ {globals locals : Bindings Value} {allowance : Nat} {token : Option Nat}
        {input : Value} {w v v₀ v₁ v₂ : World σ} {q q₀ q₁ q₂ : Progress},
      let calls : Callables σ := ⟨p.isNullary, p.call host globals allowance⟩
      Drive.Reaches host calls token (before ++ x :: (block ++ behind))
        (.start input locals) w (x :: (block ++ behind)) q v →
      (Drive.closeTo host calls x.depth).exec q v = (.ok (), q₀, v₀) →
      Drive.Reaches host calls token (x :: (block ++ behind)) q v behind q₁ v₁ →
      (Drive.closeTo host calls x.depth).exec q₁ v₁ = (.ok (), q₂, v₂) →
      ∃ values : Nat → Value, q₀.machine.StoredInto name values q₂.machine ∧
        (Drive.block host calls x.depth
          (x.map (fun _ => .act (.scope s)) :: block)).result v₀ q₀.machine =
          .ok ((), q₀.machine.hold fun i =>
            { q₀.arena.cell i with stream := values i }) := by
  refine ⟨?_, ?_⟩
  · intro script script' lines lines' before block tab tab' name arrow ts s hlex
      hlex' hname harrow hscope hblock hsaid hsaid' hdepth
    refine ⟨⟨readItems {} lines⟩, ⟨readItems {} lines'⟩,
      Program.ofScript_eq_ok_iff.2 ⟨lines, hlex, rfl⟩,
      Program.ofScript_eq_ok_iff.2 ⟨lines', hlex', rfl⟩, fun hdiag hstays => ?_⟩
    obtain ⟨hclean, hclean', hlike⟩ :=
      like_of_scope_stored hname harrow hscope hblock hsaid hsaid' hdepth
        hdiag hstays
    refine ⟨hclean, hclean',
      fun {σ host} hh {globals input w w'} hfresh hfresh' => ?_⟩
    exact Program.complete_or_fail_alike hh hfresh hfresh' fun v =>
      Program.completesWith_iff_of_said (hlike host) hh hfresh hfresh' v
  · intro script p hp hdiag hstays before block behind x name s hmem hx hin σ
      host hh globals locals allowance token input w v v₀ v₁ v₂ q q₀ q₁ q₂ calls
      hreach hopen hthrough hclose
    obtain ⟨hsteps, hbodies⟩ := Program.isBody_of_ofScript hp hdiag
      fun x hx hexit =>
      absurd hexit (hstays x hx)
    obtain ⟨hl, hstays'⟩ : IsBody (before ++ x :: (block ++ behind)) ∧
        ∀ z ∈ before ++ x :: (block ++ behind), z.content ≠ .act .exit := by
      obtain heq | hmem := List.mem_cons.1 hmem
      · refine heq ▸ ⟨hsteps, fun z hz hexit => ?_⟩
        exact hstays z
          (Program.mem_allSteps_of_mem_steps hz (by rw [hexit]; rfl)) hexit
      · obtain ⟨d, hd, heq⟩ := List.mem_map.1 hmem
        exact heq ▸ ⟨hbodies d hd,
          fun z hz => hstays z (Program.mem_allSteps_of_mem_body hd hz)⟩
    exact Drive.storedInto_of_reaches (p.steady_call hh globals allowance) hl
      hstays' hx hin hreach hopen hthrough hclose

/-- Elements that are true, stored and said, and the same elements in the
stream. -/
theorem stored_scopes_agree_filter :
    let calls := storedFilter.callables (Host.none Unit) []
    let input : Value := .array [.truth true, .truth false]
    storedFilter.CompletesWith (Host.none Unit) [] input ⟨(), 0⟩
      (.array [.truth true]) ∧
    plainFilter.CompletesWith (Host.none Unit) [] input ⟨(), 0⟩
      (.array [.truth true]) ∧
    ∃ q₁ v₁ q₂ v₂ values,
        Drive.Reaches (Host.none Unit) calls none storedFilter.steps
        (.start input []) ⟨(), 0⟩ (storedFilter.steps.drop 2) q₁ v₁ ∧
      (Drive.closeTo (Host.none Unit) calls 0).exec q₁ v₁ = (.ok (), q₂, v₂) ∧
      (Progress.start input []).machine.StoredInto "y" values q₂.machine := by
  intro calls input
  obtain ⟨hlex, hlex', hp, hp'⟩ := ofScript_storedFilter
  have hsaid : saidLines [(1, ⟨0, ["y", "<<", "filter"], "y << filter"⟩),
      (2, ⟨1, ["stream"], " stream"⟩), (3, ⟨0, ["y"], "y"⟩)] =
      [] ++ (0, "y" :: "<<" :: ["filter"])
      :: ([(1, ["stream"])] ++ [(0, ["y"])]) := rfl
  have hsaid' :
      saidLines [(1, ⟨0, ["filter"], "filter"⟩),
        (2, ⟨1, ["stream"], " stream"⟩)] = [] ++ (0, ["filter"])
        :: [(1, ["stream"])] := rfl
  have hdiag : storedFilter.diagnostic = none := by cbv
  have hstays : ∀ x ∈ storedFilter.allSteps, x.content ≠ .act .exit := by
    intro x hx hexit
    change x ∈ [_, _, _] at hx
    simp only [List.mem_cons, List.not_mem_nil, or_false] at hx
    obtain rfl | rfl | rfl := hx <;> cases hexit
  have hfresh :
      ((storedFilter.run (Host.none Unit) [] input).run ⟨(), 0⟩).2.generation
      = 1 := by
    cbv
  have hfresh' :
      ((plainFilter.run (Host.none Unit) [] input).run ⟨(), 0⟩).2.generation
      = 1 := by
    cbv
  have hresult :
      ((storedFilter.run (Host.none Unit) [] input).run ⟨(), 0⟩).1.map
      (fun r => (r.isComplete, r.output))
      = some (true, .array [.truth true]) := by
    cbv
  obtain ⟨r, hr, hfields⟩ := Option.map_eq_some_iff.1 hresult
  obtain ⟨hcomplete, houtput⟩ := Prod.mk.inj hfields
  obtain ⟨hscripts, hframe⟩ := stored_scopes_agree
  obtain ⟨p, p', hq, hq', hrun⟩ :=
    hscripts hlex hlex' (by decide) (by decide) parseStatement_filter
    (by decide) hsaid hsaid' (by decide)
  obtain rfl := Except.ok.inj (hp.symm.trans hq)
  obtain rfl := Except.ok.inj (hp'.symm.trans hq')
  obtain ⟨-, -, hrun⟩ := hrun (.inl hdiag) (.inl hstays)
  have hboth : storedFilter.CompletesWith (Host.none Unit) [] input ⟨(), 0⟩
      (.array [.truth true]) ∧
      plainFilter.CompletesWith (Host.none Unit) [] input ⟨(), 0⟩
      (.array [.truth true]) := by
    obtain ⟨v, hv, hv'⟩ | ⟨⟨r', hr', hfails⟩, -⟩ :=
      hrun (Host.steady_none Unit) hfresh hfresh'
    · obtain ⟨r', hr', -, rfl⟩ := hv
      obtain rfl := Option.some.inj (hr.symm.trans hr')
      rw [houtput] at hv'
      exact ⟨⟨r, hr, hcomplete, houtput⟩, hv'⟩
    · obtain rfl := Option.some.inj (hr.symm.trans hr')
      rw [hcomplete] at hfails
      cases hfails
  refine ⟨hboth.1, hboth.2, ?_⟩
  have hopened : Drive.Reaches (Host.none Unit) calls none storedFilter.steps
      (.start input []) ⟨(), 0⟩ (storedFilter.steps.drop 1) _ _ :=
      .next rfl (by cbv) rfl
  obtain ⟨q₁, v₁, hreach, hok⟩ : ∃ q₁ v₁,
      Drive.Reaches (Host.none Unit) calls none storedFilter.steps
      (.start input []) ⟨(), 0⟩ (storedFilter.steps.drop 2) q₁ v₁ ∧
      ((Drive.closeTo (Host.none Unit) calls 0).exec q₁ v₁).1 = .ok () :=
    ⟨_, _, hopened.trans (.next rfl (by cbv) rfl), by cbv⟩
  have hclose : (Drive.closeTo (Host.none Unit) calls 0).exec q₁ v₁
      = (.ok (), _, _) :=
    Prod.ext hok rfl
  let x : Placed Step := ⟨.act (.storeScope "y" { kind := .filter }), 0, 0, 1⟩
  let z : Placed Step := ⟨.act (.eval .stream), 1, 1, 2⟩
  have hmem : [] ++ x :: ([z] ++ storedFilter.steps.drop 2) ∈
      storedFilter.steps :: storedFilter.functions.map FunctionDef.body :=
      List.mem_cons_self
  have hin : ∀ z' ∈ [z], standsIn x.depth z' = true :=
    List.forall_mem_singleton.2 rfl
  have hopen :
    (Drive.closeTo (Host.none Unit) calls 0).exec (.start input []) ⟨(), 0⟩
    = (.ok (), .start input [], ⟨(), 0⟩) := rfl
  obtain ⟨values, hstored, -⟩ :=
    hframe hp hdiag hstays hmem rfl hin (Host.steady_none Unit) (.here _ _ _)
    hopen hreach hclose
  exact ⟨q₁, v₁, _, _, values, hreach, hclose, hstored⟩

end StreamScript
