/-!
# Cutting texts

Everything that looks for one text inside another starts from a single
question: where does the separator occur first, and what stands on either side
of it? `breakOn` answers it, and splitting, picking the n-th piece, replacing
and the substring test are four readings of the answer.

Occurrences are sought from the left and do not overlap: after a hit the search
goes on behind it. A non-empty separator therefore makes the rest shorter
(`length_lt_of_breakOn`), which is what lets the three recursions below end.

`lines` cuts a script or a configuration file into its lines. A line ends at a
line feed, one carriage return before the line feed belongs to the ending, and
a line feed at the very end opens no further line.
-/

namespace StreamScript.Text

/-- What stands behind `sep` in a text that begins with it. -/
def behind? : List Char → List Char → Option (List Char)
  | [], cs => some cs
  | _ :: _, [] => none
  | s :: ss, c :: cs => if s = c then behind? ss cs else none

/-- Looks for `sep`, with the characters already passed kept in reverse. -/
def breakOnFrom (sep passed : List Char) : List Char →
    Option (List Char × List Char)
  | [] => if sep.isEmpty then some (passed.reverse, []) else none
  | c :: rest =>
    match behind? sep (c :: rest) with
    | some after => some (passed.reverse, after)
    | none => breakOnFrom sep (c :: passed) rest

/-- **The first occurrence of `sep`**, as the text before it and the text
after it. -/
def breakOn (sep cs : List Char) : Option (List Char × List Char) :=
  breakOnFrom sep [] cs

/-- The text is the separator and what stands behind it. -/
theorem eq_append_of_behind? {sep cs after : List Char}
    (h : behind? sep cs = some after) : cs = sep ++ after := by
  induction sep generalizing cs with
  | nil =>
    simpa [behind?] using h
  | cons s ss ih =>
    cases cs with
    | nil => simp [behind?] at h
    | cons c cs =>
      simp only [behind?] at h
      split at h
      · rename_i hc
        rw [hc, ih h]
        rfl
      · simp at h

/-- The search keeps what it has passed in front of what it finds. -/
theorem eq_append_of_breakOnFrom {sep passed cs before after : List Char}
    (h : breakOnFrom sep passed cs = some (before, after)) :
    passed.reverse ++ cs = before ++ sep ++ after := by
  induction cs generalizing passed with
  | nil =>
    simp only [breakOnFrom] at h
    split at h
    · rename_i hs
      simp only [Option.some.injEq, Prod.mk.injEq] at h
      obtain ⟨rfl, rfl⟩ := h
      simp_all
    · simp at h
  | cons c cs ih =>
    simp only [breakOnFrom] at h
    split at h
    · rename_i after' hp
      simp only [Option.some.injEq, Prod.mk.injEq] at h
      obtain ⟨rfl, rfl⟩ := h
      rw [eq_append_of_behind? hp, List.append_assoc]
    · simpa using ih h

/-- **Nothing is lost at a cut.** The text is the part before, the separator
and the part after. -/
theorem eq_append_of_breakOn {sep cs before after : List Char}
    (h : breakOn sep cs = some (before, after)) :
    cs = before ++ sep ++ after := by
  simpa using eq_append_of_breakOnFrom h

/-- A cut at a non-empty separator leaves a shorter text behind it. -/
theorem length_lt_of_breakOn {sep cs before after : List Char} (hs : sep ≠ [])
    (h : breakOn sep cs = some (before, after)) : after.length < cs.length := by
  have hl := congrArg List.length (eq_append_of_breakOn h)
  have := List.length_pos_iff.2 hs
  simp only [List.length_append] at hl
  omega

/-- **The pieces between the occurrences of `sep`.** The empty separator cuts
nowhere. -/
def splitOn (sep cs : List Char) : List (List Char) :=
  if _hs : sep = [] then [cs]
  else
    match _h : breakOn sep cs with
    | none => [cs]
    | some (before, after) => before :: splitOn sep after
termination_by cs.length
decreasing_by exact length_lt_of_breakOn _hs _h

/-- The `n`-th piece, counted from 0, without cutting what lies behind it. -/
def pieceAt (sep : List Char) : Nat → List Char → Option (List Char)
  | 0, cs => some (((breakOn sep cs).map Prod.fst).getD cs)
  | n + 1, cs =>
    match breakOn sep cs with
    | none => none
    | some (_, after) => pieceAt sep n after

/-- Every occurrence of `find` replaced by `put`. The empty text is not
sought. -/
def replaceAll (find put cs : List Char) : List Char :=
  if _hs : find = [] then cs
  else
    match _h : breakOn find cs with
    | none => cs
    | some (before, after) => before ++ put ++ replaceAll find put after
termination_by cs.length
decreasing_by exact length_lt_of_breakOn _hs _h

/-- Whether `sep` occurs at all. -/
def occurs (sep cs : List Char) : Bool :=
  (breakOn sep cs).isSome

/-- Drops one carriage return from the end of a line kept in reverse. -/
def dropReturn : List Char → List Char
  | '\r' :: rest => rest
  | rest => rest

/-- The lines of a text whose current line has begun with the characters of
`begun`, kept in reverse. -/
def linesFrom (begun : List Char) : List Char → List (List Char)
  | [] => if begun.isEmpty then [] else [begun.reverse]
  | '\n' :: rest => (dropReturn begun).reverse :: linesFrom [] rest
  | c :: rest => linesFrom (c :: begun) rest

/-- **The lines of a text.** -/
def lines (cs : List Char) : List (List Char) :=
  linesFrom [] cs

example : lines "a\r\nb\n\nc\n".toList
    = ["a".toList, "b".toList, [], "c".toList] := by
  decide

end StreamScript.Text
