import StreamScript.Proofs.Effects

/-!
# The places a run comes through

A run of lines is one function, but what is said about it is mostly about its
middle: how many scopes are open when a line is reached, what the root holds
after another one. `Drive.Reaches` names the places in between: with these
lines to go, this progress and this world, the run comes to have those lines
to go, with that progress in that world.

The two halves belong together. A run goes on from any place it reaches as if
it had begun there (`Drive.Reaches.exec_eq`), so a place reached is a place of
the run. And every run comes to its end from a place it reaches, in one of
four ways (`Drive.Ends`, `Drive.exists_reaches_ends`), so nothing happens
elsewhere.
-/

namespace StreamScript.Drive

variable {σ : Type} {tasks : Tasks σ} {host : Host σ} {calls : Callables σ}
    {token : Option Nat}

/-! ## Places and ends

A place of a run is what is left of the lines, what the run has come to, and
the world. From one place to the next a line is passed over, or it is taken,
does not end the run, and the token is not out of date when it is looked at. A
run ends where no line is left, or at a line in one of three ways: it fails, it
ends the run, or the token is found out of date behind it. -/

/-- Whether the token is out of date in a world. -/
def isStale (token : Option Nat) (w : World σ) : Bool :=
  token.any (· != w.generation)

/-- A token is out of date if it is not the number of the last run. -/
theorem isStale_some_iff {t : Nat} {w : World σ} :
    isStale (some t) w = true ↔ w.generation ≠ t := by
  simp only [isStale, Option.any_some, bne_iff_ne, ne_comm]

/-- **The places a run of lines comes through.** -/
inductive Reaches (host : Host σ) (calls : Callables σ) (token : Option Nat) :
    List (Placed Step) → Progress → World σ → List (Placed Step) → Progress →
      World σ → Prop
  | here (l : List (Placed Step)) (p : Progress) (w : World σ) :
      Reaches host calls token l p w l p w
  | blank {s : Placed Step} {l l' : List (Placed Step)} {p p' : Progress}
      {w w' : World σ} (hs : s.content.isBlank = true)
      (h : Reaches host calls token l p w l' p' w') :
      Reaches host calls token (s :: l) p w l' p' w'
  | line {s : Placed Step} {l l' : List (Placed Step)} {p p₁ p' : Progress}
      {w w₁ w' : World σ} (hs : s.content.isBlank = false)
      (ht : (take host calls s).exec p w = (.ok false, p₁, w₁))
      (hf : isStale token (w₁.pause host) = false)
      (h : Reaches host calls token l p₁ (w₁.pause host) l' p' w') :
      Reaches host calls token (s :: l) p w l' p' w'

/-- **How a run ends**, from a place with these lines to go. -/
inductive Ends (host : Host σ) (calls : Callables σ) (token : Option Nat) :
    List (Placed Step) → Progress → World σ →
      Except RunError Ending × Progress × World σ → Prop
  /-- The lines are at an end, and the scopes are closed. -/
  | finished {p : Progress} {w : World σ} {r : Except RunError Unit}
      {q : Progress} {v : World σ}
      (hc : (closeTo host calls 0).exec p w = (r, q, v)) :
      Ends host calls token [] p w (r.map fun _ => .done, q, v)
  /-- A line fails, or a scope that it does not stand in. -/
  | failed {s : Placed Step} {l : List (Placed Step)} {p q : Progress}
      {w v : World σ} {e : RunError} (hs : s.content.isBlank = false)
      (ht : (take host calls s).exec p w = (.error e, q, v)) :
      Ends host calls token (s :: l) p w (.error e, q, v)
  /-- A line ends the run, and the scopes are closed. -/
  | exited {s : Placed Step} {l : List (Placed Step)} {p p₁ : Progress}
      {w w₁ : World σ} {r : Except RunError Unit} {q : Progress} {v : World σ}
      (hs : s.content.isBlank = false)
      (ht : (take host calls s).exec p w = (.ok true, p₁, w₁))
      (hc : (closeTo host calls 0).exec p₁ w₁ = (r, q, v)) :
      Ends host calls token (s :: l) p w (r.map fun _ => .done, q, v)
  /-- Another run is found to have begun. -/
  | superseded {s : Placed Step} {l : List (Placed Step)} {p q : Progress}
      {w w₁ : World σ} (hs : s.content.isBlank = false)
      (ht : (take host calls s).exec p w = (.ok false, q, w₁))
      (hf : isStale token (w₁.pause host) = true) :
      Ends host calls token (s :: l) p w (.ok .superseded, q, w₁.pause host)

/-! ## Lines, one at a time

The equations say what a run does with its first line. A run with the tasks in
another order goes from line to line in the same way, so they are stated for
any way to do the tasks, and then for the leaves from left to right. -/

/-- What closing all scopes comes to. -/
theorem exec_close (p : Progress) (w : World σ) :
    (do closeTo host calls 0; return Ending.done : Drive σ Ending).exec p w =
      let (r, q, v) := (closeTo host calls 0).exec p w
      (r.map fun _ => .done, q, v) := by
  rw [exec_bind]
  rcases (closeTo host calls 0).exec p w with ⟨_ | _, q, v⟩ <;> rfl

/-- An empty line is passed over. -/
theorem linesWith_blank {s : Placed Step} (hs : s.content.isBlank = true)
    (l : List (Placed Step)) :
    linesWith tasks host calls token (s :: l)
    = linesWith tasks host calls token l := by
  rw [linesWith, if_pos hs]

/-- **A line that says something**, and what comes after it. -/
theorem exec_linesWith_cons {s : Placed Step} (hs : s.content.isBlank = false)
    (l : List (Placed Step)) (p : Progress) (w : World σ) :
    (linesWith tasks host calls token (s :: l)).exec p w =
      match (takeWith tasks host calls s).exec p w with
      | (.error e, q, v) => (.error e, q, v)
      | (.ok true, q, v) =>
        (do closeTo host calls 0; return Ending.done : Drive σ Ending).exec q v
      | (.ok false, q, v) =>
        if isStale token (v.pause host) then (.ok .superseded, q, v.pause host)
        else (linesWith tasks host calls token l).exec q (v.pause host) := by
  rw [linesWith, if_neg (by simp [hs]), exec_bind]
  obtain ⟨_ | _ | _, q, v⟩ := (takeWith tasks host calls s).exec p w
  · rfl
  · show (isSuperseded host token >>= _).exec q v = _
    rw [exec_bind, exec_isSuperseded]
    change (if isStale token (v.pause host) = true
      then (pure _ : Drive σ Ending) else _).exec q (v.pause host)
      = if isStale token (v.pause host) = true then _ else _
    split <;> rfl
  · rfl

/-- The same from left to right, -/
theorem lines_blank {s : Placed Step} (hs : s.content.isBlank = true)
    (l : List (Placed Step)) :
    lines host calls token (s :: l) = lines host calls token l :=
  linesWith_blank hs l

/-- and for a line that says something. -/
theorem exec_lines_cons {s : Placed Step} (hs : s.content.isBlank = false)
    (l : List (Placed Step)) (p : Progress) (w : World σ) :
    (lines host calls token (s :: l)).exec p w =
      match (take host calls s).exec p w with
      | (.error e, q, v) => (.error e, q, v)
      | (.ok true, q, v) =>
        (do closeTo host calls 0; return Ending.done : Drive σ Ending).exec q v
      | (.ok false, q, v) =>
        if isStale token (v.pause host) then (.ok .superseded, q, v.pause host)
        else (lines host calls token l).exec q (v.pause host) :=
  exec_linesWith_cons hs l p w

namespace Reaches

variable {l l' l'' : List (Placed Step)} {p p' p'' : Progress}
    {w w' w'' : World σ}

/-- Places behind places are places. -/
theorem trans (h : Reaches host calls token l p w l' p' w')
    (h' : Reaches host calls token l' p' w' l'' p'' w'') :
    Reaches host calls token l p w l'' p'' w'' := by
  induction h with
  | here => exact h'
  | blank hs _ ih => exact .blank hs (ih h')
  | line hs ht hf _ ih => exact .line hs ht hf (ih h')

/-- What a run reaches with a token it reaches without. -/
theorem forget (h : Reaches host calls token l p w l' p' w') :
    Reaches host calls none l p w l' p' w' := by
  induction h with
  | here => exact .here _ _ _
  | blank hs _ ih => exact .blank hs ih
  | line hs ht _ _ ih => exact .line hs ht rfl ih

/-- The lines that are left are the last ones. -/
theorem exists_append (h : Reaches host calls token l p w l' p' w') :
    ∃ before, l = before ++ l' := by
  induction h with
  | here => exact ⟨[], rfl⟩
  | @blank s _ _ _ _ _ _ _ _ ih | @line s _ _ _ _ _ _ _ _ _ _ _ _ ih =>
    obtain ⟨before, rfl⟩ := ih
    exact ⟨s :: before, rfl⟩

/-- There are no more of them than there were. -/
theorem length_le (h : Reaches host calls token l p w l' p' w') :
    l'.length ≤ l.length := by
  induction h with
  | here => exact Nat.le_refl _
  | blank _ _ ih | line _ _ _ _ ih => exact Nat.le_succ_of_le ih

/-- A run that has got no further is where it was. So where a place lies is
known from how many lines are left there. -/
theorem eq_of_length_le (h : Reaches host calls token l p w l' p' w')
    (hl : l.length ≤ l'.length) : p' = p ∧ w' = w := by
  cases h with
  | here => exact ⟨rfl, rfl⟩
  | blank _ h | line _ _ _ h =>
    exact absurd (Nat.le_trans hl h.length_le) (Nat.not_succ_le_self _)

/-- More lines at the end are not noticed before. -/
theorem append (h : Reaches host calls token l p w l' p' w')
    (rest : List (Placed Step)) :
    Reaches host calls token (l ++ rest) p w (l' ++ rest) p' w' := by
  induction h with
  | here => exact .here _ _ _
  | blank hs _ ih => exact .blank hs ih
  | line hs ht hf _ ih => exact .line hs ht hf ih

/-- A run comes through all places between its lines. -/
theorem through (before : List (Placed Step)) {rest : List (Placed Step)}
    (h : Reaches host calls token (before ++ rest) p w l' p' w')
    (hl : l'.length ≤ rest.length) :
    ∃ p₁ w₁, Reaches host calls token before p w [] p₁ w₁ ∧
      Reaches host calls token rest p₁ w₁ l' p' w' := by
  induction before generalizing p w with
  | nil => exact ⟨p, w, .here _ _ _, h⟩
  | cons s before ih =>
    rw [List.cons_append] at h
    cases h with
    -- A run that is at the first of the lines has not come to the end of them.
    | here =>
      rw [List.length_cons, List.length_append] at hl
      omega
    | blank hs h =>
      obtain ⟨p₁, w₁, h₁, h₂⟩ := ih h
      exact ⟨p₁, w₁, .blank hs h₁, h₂⟩
    | line hs ht hf h =>
      obtain ⟨p₁, w₁, h₁, h₂⟩ := ih h
      exact ⟨p₁, w₁, .line hs ht hf h₁, h₂⟩

/-- The lines before a place are a run of their own. -/
theorem before {before rest : List (Placed Step)}
    (h : Reaches host calls token (before ++ rest) p w rest p' w') :
    Reaches host calls token before p w [] p' w' := by
  obtain ⟨p₁, w₁, h₁, h₂⟩ := h.through before (Nat.le_refl _)
  obtain ⟨rfl, rfl⟩ := h₂.eq_of_length_le (Nat.le_refl _)
  exact h₁

/-- **A run has one way to go**: of two places it reaches, one is behind the
other. -/
theorem linear (h : Reaches host calls token l p w l' p' w')
    (h' : Reaches host calls token l p w l'' p'' w'')
    (hl : l''.length ≤ l'.length) :
    Reaches host calls token l' p' w' l'' p'' w'' := by
  induction h with
  | here => exact h'
  | blank hs h ih =>
    cases h' with
    | here =>
      exact absurd (Nat.le_trans hl h.length_le) (Nat.not_succ_le_self _)
    | blank _ h' => exact ih h' hl
    | line hs' => exact absurd hs (by simp [hs'])
  | line hs ht hf h ih =>
    cases h' with
    | here =>
      exact absurd (Nat.le_trans hl h.length_le) (Nat.not_succ_le_self _)
    | blank hs' => exact absurd hs' (by simp [hs])
    | line _ ht' _ h' =>
      rw [ht] at ht'
      cases ht'
      exact ih h' hl

/-- One line further, with what taking it has left. -/
theorem next {s : Placed Step} (hs : s.content.isBlank = false)
    (ht : ((take host calls s).exec p w).1 = .ok false)
    (hf : isStale token (((take host calls s).exec p w).2.2.pause host)
      = false) :
    Reaches host calls token (s :: l) p w l ((take host calls s).exec p w).2.1
      (((take host calls s).exec p w).2.2.pause host) :=
  .line hs (Prod.ext ht rfl) hf (.here _ _ _)

/-- **A run goes on from a place it reaches** as if it had begun there. -/
theorem exec_eq (h : Reaches host calls token l p w l' p' w') :
    (lines host calls token l).exec p w = (lines host calls token l').exec p'
      w' := by
  induction h with
  | here => rfl
  | blank hs _ ih => rw [lines_blank hs, ih]
  | line hs ht hf _ ih => rw [exec_lines_cons hs, ht]; simp only [hf]; exact ih

end Reaches

/-- The ways to end are what a run does. -/
theorem Ends.exec_eq {l : List (Placed Step)} {p : Progress} {w : World σ}
    {o : Except RunError Ending × Progress × World σ}
    (h : Ends host calls token l p w o) :
    (lines host calls token l).exec p w = o := by
  cases h with
  | finished hc => rw [lines_nil, exec_close, hc]
  | failed hs ht => rw [exec_lines_cons hs, ht]
  | exited hs ht hc => rw [exec_lines_cons hs, ht]; simp only [exec_close, hc]
  | superseded hs ht hf => rw [exec_lines_cons hs, ht]; simp only [hf, if_true]

/-- **Every run ends**, at a place it reaches. -/
theorem exists_reaches_ends (host : Host σ) (calls : Callables σ)
    (token : Option Nat) (l : List (Placed Step)) (p : Progress) (w : World σ) :
    ∃ l' p' w', Reaches host calls token l p w l' p' w' ∧
      Ends host calls token l' p' w' ((lines host calls token l).exec p w) := by
  induction l generalizing p w with
  | nil =>
    refine ⟨[], p, w, .here _ _ _, ?_⟩
    rw [lines_nil, exec_close]
    exact .finished rfl
  | cons s l ih =>
    by_cases hs : s.content.isBlank = true
    · obtain ⟨l', p', w', hr, he⟩ := ih p w
      exact ⟨l', p', w', .blank hs hr, lines_blank hs l ▸ he⟩
    · replace hs : s.content.isBlank = false := Bool.eq_false_iff.2 hs
      rw [exec_lines_cons hs]
      rcases ht : (take host calls s).exec p w with ⟨_ | _ | _, q, v⟩
      · exact ⟨s :: l, p, w, .here _ _ _, .failed hs ht⟩
      · cases hf : isStale token (v.pause host) with
        | true =>
          simp only [hf, if_true]
          exact ⟨s :: l, p, w, .here _ _ _, .superseded hs ht hf⟩
        | false =>
          simp only [hf, Bool.false_eq_true, if_false]
          obtain ⟨l', p', w', hr, he⟩ := ih q (v.pause host)
          exact ⟨l', p', w', .line hs ht hf hr, he⟩
      · refine ⟨s :: l, p, w, .here _ _ _, ?_⟩
        simp only [exec_close]
        exact .exited hs ht rfl

end StreamScript.Drive
