import Mathlib.Data.List.Infix
import StreamScript.Proofs.Effects

/-!
# Texts cut at separators

Four built-in functions look for one text inside another. `split` and `piece`
keep what is between the places where it is found, `replace` puts something
else there, and `contains` only asks whether there is such a place. They agree
because all of them stand on one search, and the search finds the first place
there is (`breakOn_cases`): no occurrence begins before it. What is cut off in
front of a place therefore does not contain the separator, although the
separator may overlap itself.

The pieces of a text with the separator between them are the text again, and
with something else between them they are what `replace` makes of it
(`replaceAll_eq_intercalate`). The empty separator cuts between any two
characters, and there `join` takes back what `split` does as well.
-/

namespace StreamScript

namespace Text

variable {sep cs before after part : List Char}

/-! ## The first occurrence

The search goes along a text and asks at each place whether the separator
begins there. It ends at the first such place. What matters about what is cut
off is that the separator does not begin anywhere in it, not even if it would
end behind the cut. -/

/-- The question at one place. -/
theorem behind?_eq_none_iff : behind? sep cs = none ↔ ¬ sep <+: cs := by
  induction sep generalizing cs with
  | nil => simp [behind?]
  | cons s ss ih =>
    cases cs with
    | nil => simp [behind?]
    | cons c cs =>
      rw [behind?, List.cons_prefix_cons]
      split
      · next hc => rw [ih, and_iff_right hc]
      · next hc => simp [hc]

/-- **The search ends at the first occurrence**, and in vain only if there is
none. `passed` is what the search has gone over already, in reverse, and it is
put in front of what is found. -/
theorem breakOnFrom_cases (sep passed cs : List Char) :
    (∃ before after,
        breakOnFrom sep passed cs = some (passed.reverse ++ before, after) ∧
        cs = before ++ sep ++ after ∧
        ∀ front back, before = front ++ back → back ≠ [] →
          ¬ sep <+: back ++ sep ++ after) ∨
      (breakOnFrom sep passed cs = none ∧ ¬ sep <:+: cs) := by
  induction cs generalizing passed with
  | nil =>
    rw [breakOnFrom]
    by_cases hs : sep = []
    · refine .inl ⟨[], [], by simp [hs], by
        simp [hs], fun front back hcut hback => ?_⟩
      exact absurd (List.append_eq_nil_iff.1 hcut.symm).2 hback
    · exact .inr ⟨by simp [hs], fun h => hs (List.infix_nil.1 h)⟩
  | cons c cs ih =>
    rw [breakOnFrom]
    split
    · next after hfound =>
      refine .inl
        ⟨[], after, by rw [List.append_nil], eq_append_of_behind? hfound, ?_⟩
      exact fun front back hcut hback =>
        absurd (List.append_eq_nil_iff.1 hcut.symm).2 hback
    · next hhere =>
      rw [behind?_eq_none_iff] at hhere
      obtain ⟨before, after, hfound, rfl, hfirst⟩ | ⟨hnone, hnowhere⟩ :=
        ih (c :: passed)
      · refine .inl ⟨c :: before, after, ?_, rfl,
          fun front back hcut hback => ?_⟩
        · rw [hfound, List.reverse_cons, List.append_assoc]
          rfl
        · obtain ⟨rfl, rfl⟩ | ⟨front, rfl, hcut⟩ :=
            List.cons_eq_append_iff.1 hcut
          · exact hhere
          · exact hfirst front back (List.cons.inj hcut).2 hback
      · exact .inr
          ⟨hnone, fun h => (List.infix_cons_iff.1 h).elim hhere hnowhere⟩

/-- The same from the front of a text. -/
theorem breakOn_cases (sep cs : List Char) :
    (∃ before after, breakOn sep cs = some (before, after) ∧
        cs = before ++ sep ++ after ∧
        ∀ front back, before = front ++ back → back ≠ [] →
          ¬ sep <+: back ++ sep ++ after) ∨
      (breakOn sep cs = none ∧ ¬ sep <:+: cs) :=
  breakOnFrom_cases sep [] cs

/-- A single character is found behind what does not have it. -/
theorem breakOnFrom_singleton {c : Char} (h : c ∉ before)
    (passed after : List Char) :
    breakOnFrom [c] passed (before ++ c :: after)
    = some (passed.reverse ++ before, after) := by
  induction before generalizing passed with
  | nil => simp [breakOnFrom, behind?]
  | cons d before ih =>
    rw [List.mem_cons, not_or] at h
    rw [List.cons_append, breakOnFrom, behind?, if_neg h.1, ih h.2,
      List.reverse_cons, List.append_assoc, List.singleton_append]

theorem breakOn_singleton {c : Char} (h : c ∉ before) (after : List Char) :
    breakOn [c] (before ++ c :: after) = some (before, after) :=
  breakOnFrom_singleton h [] after

/-- A text is sought in vain exactly if it does not occur. -/
theorem breakOn_eq_none_iff : breakOn sep cs = none ↔ ¬ sep <:+: cs := by
  obtain ⟨before, after, hfound, rfl, -⟩ | ⟨hnone, hnowhere⟩ :=
    breakOn_cases sep cs
  · exact iff_of_false (by rw [hfound]; nofun)
      (not_not_intro ⟨before, after, rfl⟩)
  · exact iff_of_true hnone hnowhere

/-- A text occurs exactly if it is a part. -/
theorem occurs_iff : occurs sep cs = true ↔ sep <:+: cs := by
  rw [occurs, ← Option.ne_none_iff_isSome, Ne, breakOn_eq_none_iff, not_not]

/-- **In front of the first occurrence there is none.** An occurrence inside
`before` would begin earlier than the one that was found, even if it reached up
to it. -/
theorem not_isInfix_of_breakOn (hs : sep ≠ [])
    (h : breakOn sep cs = some (before, after)) :
    ¬ sep <:+: before := by
  obtain ⟨before', after', hfound, -, hfirst⟩ | ⟨hnone, -⟩ :=
    breakOn_cases sep cs
  · cases h.symm.trans hfound
    rintro ⟨front, back, hwhole⟩
    refine hfirst front (sep ++ back) (by rw [← hwhole, List.append_assoc])
      (by simp [hs]) ?_
    rw [List.append_assoc, List.append_assoc]
    exact List.prefix_append sep _
  · cases h.symm.trans hnone

/-! ## The pieces between the occurrences

The pieces are found one after the other, behind each other. Each of them is in
front of an occurrence, or it is the last one and there is none in it; so none
of them holds the separator. Replacing and taking the n-th piece go through the
same occurrences, with something else done at each. -/

/-- A text in which the separator does not occur is one piece. -/
theorem splitOn_of_none (hs : sep ≠ []) (h : breakOn sep cs = none) :
    splitOn sep cs = [cs] := by
  rw [splitOn, dif_neg hs]
  split
  · rfl
  · next heq => cases h.symm.trans heq

/-- At an occurrence the first piece ends, and the others are those of what is
behind. -/
theorem splitOn_of_some (hs : sep ≠ [])
    (h : breakOn sep cs = some (before, after)) :
    splitOn sep cs = before :: splitOn sep after := by
  rw [splitOn, dif_neg hs]
  split
  · next heq => cases h.symm.trans heq
  · next heq =>
    cases h.symm.trans heq
    rfl

/-- There is at least one piece, if only an empty one. -/
theorem splitOn_ne_nil (sep cs : List Char) : splitOn sep cs ≠ [] := by
  fun_cases splitOn sep cs <;> exact List.cons_ne_nil _ _

/-- Something is put between a piece and those behind it. -/
theorem intercalate_cons_splitOn (put : List Char) (piece : List Char)
    (sep cs : List Char) :
    List.intercalate put (piece :: splitOn sep cs) =
      piece ++ put ++ List.intercalate put (splitOn sep cs) := by
  obtain ⟨next, more, hpieces⟩ :=
    List.exists_cons_of_ne_nil (splitOn_ne_nil sep cs)
  rw [hpieces, List.intercalate_cons_cons, List.append_assoc]

/-- **The pieces with the separator between them** are the text. It holds of
the empty separator as well, which is never found and leaves the text in one
piece. -/
theorem intercalate_splitOn (sep cs : List Char) :
    List.intercalate sep (splitOn sep cs) = cs := by
  fun_induction splitOn sep cs with
  | case1 cs => exact List.intercalate_singleton
  | case2 cs => exact List.intercalate_singleton
  | case3 cs hs before after hfound ih =>
    rw [intercalate_cons_splitOn, ih, ← eq_append_of_breakOn hfound]

/-- **Replacing is putting something else between the pieces.** The two
functions look for the text in the same places, from the front, and go on
behind what they have found. -/
theorem replaceAll_eq_intercalate {find : List Char} (hf : find ≠ [])
    (put cs : List Char) :
    replaceAll find put cs = List.intercalate put (splitOn find cs) := by
  fun_induction replaceAll find put cs with
  | case1 _ hnil => exact absurd hnil hf
  | case2 cs _ hnone =>
    rw [splitOn_of_none hf hnone, List.intercalate_singleton]
  | case3 cs _ before after hfound ih =>
    rw [splitOn_of_some hf hfound, intercalate_cons_splitOn, ih]

/-- **A piece by its number** is the one that stands there. It is looked for
without cutting up the rest of the text, so this is a statement about two
recursions: one that counts down and one that makes a list. -/
theorem pieceAt_eq_getElem? (hs : sep ≠ []) (n : Nat) (cs : List Char) :
    pieceAt sep n cs = (splitOn sep cs)[n]? := by
  induction n generalizing cs with
  | zero =>
    rw [pieceAt]
    cases h : breakOn sep cs with
    | none => rw [splitOn_of_none hs h]; rfl
    | some cut => rw [splitOn_of_some hs h]; rfl
  | succ n ih =>
    rw [pieceAt]
    cases h : breakOn sep cs with
    | none => rw [splitOn_of_none hs h]; rfl
    | some cut =>
      rw [splitOn_of_some hs h, List.getElem?_cons_succ]
      exact ih cut.2

/-- **No piece contains the separator.** For a piece between two separators it
follows from the first occurrence being the first, and for the last piece from
there being no other. -/
theorem not_isInfix_of_mem_splitOn (hs : sep ≠ []) (h : part ∈ splitOn sep cs) :
    ¬ sep <:+: part := by
  fun_induction splitOn sep cs with
  | case1 _ hnil => exact absurd hnil hs
  | case2 cs _ hnone =>
    obtain rfl := List.mem_singleton.1 h
    exact breakOn_eq_none_iff.1 hnone
  | case3 cs _ before after hfound ih =>
    obtain rfl | h := List.mem_cons.1 h
    · exact not_isInfix_of_breakOn hs hfound
    · exact ih h

/-- What does not have the character is not cut there. -/
theorem splitOn_of_not_mem {c : Char} (h : c ∉ cs) : splitOn [c] cs = [cs] :=
  splitOn_of_none (List.cons_ne_nil c [])
    (breakOn_eq_none_iff.2 fun hinfix =>
      h ((List.singleton_infix_iff c cs).1 hinfix))

/-- A piece behind the last separator is the last one. -/
theorem splitOn_concat {c : Char} (h : c ∉ part) (cs : List Char) :
    splitOn [c] (cs ++ c :: part) = splitOn [c] cs ++ [part] := by
  generalize hsep : [c] = sep
  have hcut : ∀ {before after}, c ∉ before →
      splitOn sep (before ++ c :: after) = before :: splitOn sep after :=
    fun hbefore =>
      splitOn_of_some (hsep ▸ List.cons_ne_nil c [])
        (hsep ▸ breakOn_singleton hbefore _)
  fun_induction splitOn sep cs with
  | case1 cs hnil => cases hsep.trans hnil
  | case2 cs _ hnone =>
    have hcs : c ∉ cs := fun hmem => breakOn_eq_none_iff.1 hnone
      (hsep ▸ (List.singleton_infix_iff c cs).2 hmem)
    rw [hcut hcs, ← hsep, splitOn_of_not_mem h, List.singleton_append]
  | case3 cs hs before after hfound ih =>
    have hbefore : c ∉ before := fun hmem => not_isInfix_of_breakOn hs hfound
      (hsep ▸ (List.singleton_infix_iff c before).2 hmem)
    rw [eq_append_of_breakOn hfound, ← hsep, List.append_assoc,
      List.append_assoc, List.singleton_append, List.cons_append, hsep,
      hcut hbefore, ih]

/-- A text has at most one piece more than it has characters. -/
theorem length_splitOn_le (sep cs : List Char) :
    (splitOn sep cs).length ≤ cs.length + 1 := by
  fun_induction splitOn sep cs with
  | case1 cs => simp
  | case2 cs => simp
  | case3 cs hs before after hfound ih =>
    have := length_lt_of_breakOn hs hfound
    rw [List.length_cons]
    omega

end Text

namespace Builtin

variable {σ : Type} (host : Host σ) (w : World σ) {t sep : String}

/-! ## The built-in functions

What a script sees are the built-in functions, with values for their arguments.
`split` knows the empty separator, and means by it a cut between any two
characters; `piece` and `replace` do not, and are asked here about the others
only. The number of a piece is cast to an integer of 64 bits first, and in a
text with fewer characters than the greatest of these the cast is not seen. -/

/-- The texts between the places where `sep` is found. -/
def textsBetween (sep t : String) : List String :=
  (pieces sep.toList t.toList).map String.ofList

/-- The pieces with the separator between them are the text, also if the
separator is empty. -/
theorem intercalate_pieces (sep cs : List Char) :
    List.intercalate sep (pieces sep cs) = cs := by
  unfold pieces
  split
  · next hempty =>
    rw [List.isEmpty_iff.1 hempty]
    induction cs with
    | nil => rfl
    | cons c cs ih => cases cs with
      | nil => rfl
      | cons d ds =>
        show [c] ++ List.intercalate [] ((d :: ds).map fun c => [c]) = _
        rw [ih]
        rfl
  · exact Text.intercalate_splitOn sep cs

theorem textsBetween_of_ne (hs : sep ≠ "") (t : String) :
    textsBetween sep t = (Text.splitOn sep.toList t.toList).map
      String.ofList := by
  have hempty : ¬ sep.toList.isEmpty = true := fun hempty =>
    hs (String.toList_eq_nil_iff.1 (List.isEmpty_iff.1 hempty))
  rw [textsBetween, pieces, if_neg hempty]

/-- `split` gives the texts between the places as an array. -/
theorem exec_split (sep t : String) :
    (call host .split (.text t) [.text sep]).exec w =
      (.ok (.array ((textsBetween sep t).map .text)), w) := by
  show (Except.ok (Value.array ((pieces sep.toList t.toList).map textOf)), w)
      = _
  rw [textsBetween, List.map_map]
  rfl

/-- Texts are joined as they are. -/
theorem mapM_asText (parts : List String) :
    (parts.map Value.text).mapM Value.asText = .ok parts := by
  induction parts with
  | nil => rfl
  | cons part parts ih =>
    rw [List.map_cons, List.mapM_cons, ih]
    rfl

/-- `join` takes texts and puts something between them. -/
theorem exec_join (put : String) (parts : List String) :
    (call host .join (.array (parts.map .text)) [.text put]).exec w =
      (.ok (textOf (List.intercalate put.toList (parts.map String.toList))),
        w) := by
  show (((parts.map Value.text).mapM Value.asText) >>= fun texts =>
    Except.ok (textOf (List.intercalate put.toList (texts.map String.toList))),
      w) = _
  rw [mapM_asText]
  rfl

/-- What `piece` gives, with the piece counted from 1. -/
theorem exec_piece (hs : sep ≠ "") (t : String) {x : Float}
    (hx : 1 ≤ Number.toInt64 x) :
    (call host .piece (.text t) [.text sep, .number x]).exec w =
      (.ok
        (.text (((textsBetween sep t)[(Number.toInt64 x - 1).toNat]?).getD "")),
        w) := by
  have hne := mt String.toList_eq_nil_iff.1 hs
  have hn : ¬ (Number.toInt64 x < 1 ∨ sep.toList = []) :=
    fun h => h.elim (by omega) hne
  show (Except.ok (textOf (pieceNumber sep.toList (Number.toInt64 x) t.toList)),
      w) = _
  rw [pieceNumber, if_neg hn, Text.pieceAt_eq_getElem? hne,
    textsBetween_of_ne hs, List.getElem?_map]
  cases (Text.splitOn sep.toList t.toList)[(Number.toInt64 x - 1).toNat]? <;>
      rfl

/-- **What the built-in functions make of a text and a separator**, if `parts`
are what is between the places where the separator is found. Each field is a
call of a built-in function as a script makes it, with its arguments checked
and its result in a value. -/
structure CutAlike (t sep : String) (parts : List String) : Prop where
  /-- `split` gives the parts. -/
  split : (call host .split (.text t) [.text sep]).exec w =
    (.ok (.array (parts.map .text)), w)
  /-- Joined by the separator, the parts are the text again. -/
  join : (call host .join (.array (parts.map .text)) [.text sep]).exec w
    = (.ok (.text t), w)
  /-- To replace the separator is to join the parts by something else. -/
  replace : sep ≠ "" → ∀ put, ∃ r,
    (call host .replace (.text t) [.text sep, .text put]).exec w
    = (.ok (.text r), w) ∧
    (call host .join (.array (parts.map .text)) [.text put]).exec w
    = (.ok (.text r), w)
  /-- A piece by its number, which is cast to 64 bits, is one of the parts, or
  empty. -/
  piece : sep ≠ "" → ∀ x n, Number.toInt64 x = n → 1 ≤ n →
    (call host .piece (.text t) [.text sep, .number x]).exec w =
      (.ok (.text ((parts[(n - 1).toNat]?).getD "")), w)
  /-- The cast does not show: a number that is an integer counts as that
  integer. -/
  piece_of_integer : sep ≠ "" → t.length + 1 < Number.greatestInt64 → ∀ x n,
    Number.toInt? x = some n → 1 ≤ n →
      (call host .piece (.text t) [.text sep, .number x]).exec w =
        (.ok (.text ((parts[(n - 1).toNat]?).getD "")), w)
  /-- No part contains the separator, and `contains` says so. -/
  free : sep ≠ "" → ∀ part ∈ parts, ¬ sep.toList <:+: part.toList ∧
    (call host .contains (.text part) [.text sep]).exec w
    = (.ok (.truth false), w)

/-- Above the greatest index there are no parts that a cast could miss. -/
theorem getElem?_textsBetween_of_saturated (hs : sep ≠ "")
    (ht : t.length + 1 < Number.greatestInt64) {x : Float} {n : Int}
    (hx : Number.toInt? x = some n) (hn : 1 ≤ n) :
    1 ≤ Number.toInt64 x ∧
      (textsBetween sep t)[(Number.toInt64 x - 1).toNat]? =
        (textsBetween sep t)[(n - 1).toNat]? := by
  have hcast := Number.toInt64_of_toInt? hx
  have hlength : ((textsBetween sep t).length : Int) ≤ t.length + 1 := by
    rw [textsBetween_of_ne hs, List.length_map]
    exact_mod_cast Text.length_splitOn_le sep.toList t.toList
  simp only [Number.leastInt64, Number.greatestInt64] at hcast ht
  by_cases hfits : n ≤ 9223372036854775807
  · obtain heq : Number.toInt64 x = n := by omega
    rw [heq]
    exact ⟨hn, rfl⟩
  · refine ⟨by omega, ?_⟩
    rw [List.getElem?_eq_none (by omega), List.getElem?_eq_none (by omega)]

/-- **The built-in functions that cut texts agree.** Of every text, and for
every separator, `split` gives parts that all of them know. The empty separator
is among these: there `split` gives the characters one by one, and the fields
say what the others make of it. -/
theorem cutting_agrees (t sep : String) :
    ∃ parts, CutAlike host w t sep parts := by
  have hjoin : ∀ put : String,
      (call host .join (.array ((textsBetween sep t).map .text))
        [.text put]).exec w =
        (.ok
          (textOf (List.intercalate put.toList (pieces sep.toList t.toList))),
          w) := by
    intro put
    rw [exec_join, textsBetween, List.map_map]
    simp [Function.comp_def]
  refine ⟨textsBetween sep t, exec_split host w sep t, ?_, fun hs put => ?_,
    fun hs x n hx hn => ?_, fun hs ht x n hx hn => ?_, fun hs part hpart => ?_⟩
  · rw [hjoin, intercalate_pieces, textOf, String.ofList_toList]
  · have hne := mt String.toList_eq_nil_iff.1 hs
    refine ⟨_, ?_, hjoin put⟩
    show (Except.ok (textOf (Text.replaceAll sep.toList put.toList t.toList)),
        w) = _
    rw [Text.replaceAll_eq_intercalate hne, pieces, if_neg (by simpa using hne)]
    rfl
  · subst hx
    exact exec_piece host w hs t hn
  · obtain ⟨hpos, heq⟩ := getElem?_textsBetween_of_saturated hs ht hx hn
    rw [exec_piece host w hs t hpos, heq]
  · have hne := mt String.toList_eq_nil_iff.1 hs
    rw [textsBetween_of_ne hs] at hpart
    obtain ⟨cs, hcs, rfl⟩ := List.mem_map.1 hpart
    have hfree := Text.not_isInfix_of_mem_splitOn hne hcs
    rw [String.toList_ofList]
    refine ⟨hfree, ?_⟩
    show (Except.ok
        (Value.truth (Text.occurs sep.toList (String.ofList cs).toList)), w) = _
    rw [String.toList_ofList, Bool.eq_false_iff.2 (mt Text.occurs_iff.1 hfree)]

/-- A separator that overlaps itself is found once in three letters. -/
theorem cutting_agrees_overlapping :
    "aa" ≠ "" ∧ Number.toInt64 2.5 = 2 ∧ Number.toInt? 2 = some 2 ∧
      ("aaa".length + 1 : Int) < Number.greatestInt64 ∧
      ∃ parts, parts = ["", "a"] ∧
        (call (Host.none Unit) .split (.text "aaa") [.text "aa"]).exec
          { host := () } = (.ok (.array (parts.map .text)), { host := () }) ∧
        (∃ r,
            (call (Host.none Unit) .replace (.text "aaa")
              [.text "aa", .text "b"]).exec
            { host := () } = (.ok (.text r), { host := () }) ∧
          (call (Host.none Unit) .join (.array (parts.map .text))
            [.text "b"]).exec
            { host := () } = (.ok (.text r), { host := () })) ∧
        (call (Host.none Unit) .piece (.text "aaa")
          [.text "aa", .number 2.5]).exec
          { host := () } = (.ok (.text "a"), { host := () }) ∧
        (call (Host.none Unit) .piece (.text "aaa")
          [.text "aa", .number 2]).exec
          { host := () } = (.ok (.text "a"), { host := () }) ∧
        ∀ part ∈ parts, ¬ "aa".toList <:+: part.toList := by
  have hcast : Number.toInt64 2.5 = 2 := by decide +kernel
  have hwhole : Number.toInt? 2 = some 2 := by decide +kernel
  have hshort : ("aaa".length + 1 : Int) < Number.greatestInt64 := by decide
  obtain ⟨parts, hcut⟩ :=
    cutting_agrees (Host.none Unit) { host := () } "aaa" "aa"
  have hparts : parts = ["", "a"] := by
    have hsplit := hcut.split
    rw [exec_split, show textsBetween "aa" "aaa" = ["", "a"] by
      decide +kernel] at hsplit
    injection hsplit with hvalue
    injection hvalue with hvalue
    injection hvalue with hitems
    exact (List.map_injective_iff.2 (fun _ _ h => Value.text.inj h) hitems).symm
  refine ⟨by decide, hcast, hwhole, hshort, parts, hparts, hcut.split,
    hcut.replace (by decide) "b", ?_, ?_,
    fun part hpart => (hcut.free (by decide) part hpart).1⟩
  · rw [hcut.piece (by decide) 2.5 2 hcast (by decide), hparts]
    rfl
  · rw [hcut.piece_of_integer (by decide) hshort 2 2 hwhole (by decide), hparts]
    rfl

end Builtin

end StreamScript
