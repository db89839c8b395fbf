import Mathlib.Data.List.Basic
import StreamScript.Pattern.Rule

/-!
# What stands in brackets

The grammar cuts brackets out before it looks into them. This module says that
it cuts in the right places. Tokens are `Balanced` if they close what they open
and nothing else. A run that grows up to a closing bracket ends in front of the
one that belongs to it (`Balanced.grow_upTo`), since no shorter run is balanced
and has that bracket behind it.

A list is split at the separators outside brackets. Nothing is lost by that, as
putting the separators back gives the tokens again
(`intercalate_splitTopLevel`). Nothing is cut through either: tokens that are
`Sealed` stay together, and so does anything in brackets.
-/

namespace StreamScript.Pattern

variable {a b ts : List Token} {t opener closer stop sep : Token}
    {kind : Bracket}

/-! ## Balanced tokens

What is open is kept on a stack, and a closer has to find its own kind on top.
Tokens are balanced if they leave every stack as it was, not just the empty
one. Said so, balanced tokens can be put one after the other and put in
brackets without a word about what is around them. -/

/-- **Tokens that close what they open**, whatever is open around them. -/
def Balanced (ts : List Token) : Prop :=
  ∀ stack, openAfter stack ts = some stack

theorem opened?_of_closed? (h : Bracket.closed? t = some kind) :
    Bracket.opened? t = none := by
  cases ho : Bracket.opened? t with
  | none => rfl
  | some b =>
    rw [Bracket.closed?_of_opened? ho] at h
    cases h

/-- A closer takes its own kind from the top of the stack, and spoils
everything else. -/
theorem openAfter_closer (h : Bracket.closed? closer = some kind)
    (stack : List Bracket) (ts : List Token) :
    openAfter stack (closer :: ts) =
      match stack with
      | top :: stack => if top = kind then openAfter stack ts else none
      | [] => none := by
  cases stack <;> simp [openAfter, opened?_of_closed? h, h]

/-- Balanced tokens behind one another are balanced. -/
theorem Balanced.append (ha : Balanced a) (hb : Balanced b) :
    Balanced (a ++ b) := by
  intro stack
  rw [openAfter_append, ha stack]
  exact hb stack

/-- A token that is no bracket. -/
theorem balanced_token (ho : Bracket.opened? t = none)
    (hc : Bracket.closed? t = none) :
    Balanced [t] := by
  intro stack
  rw [openAfter, ho, hc]
  rfl

theorem balanced_of_forall
    (h : ∀ t ∈ ts, Bracket.opened? t = none ∧ Bracket.closed? t = none) :
    Balanced ts := by
  induction ts with
  | nil => exact fun _ => rfl
  | cons t ts ih =>
    obtain ⟨⟨ho, hc⟩, hts⟩ := List.forall_mem_cons.1 h
    exact (balanced_token ho hc).append (ih hts)

/-- **Balanced tokens in a pair of brackets.** -/
theorem Balanced.enclosed (ho : Bracket.opened? opener = some kind)
    (hc : Bracket.closed? closer = some kind) (h : Balanced ts) :
    Balanced (opener :: (ts ++ [closer])) := by
  intro stack
  rw [openAfter, ho]
  dsimp only
  rw [openAfter_append, h, Option.bind_some, openAfter_closer hc]
  exact if_pos rfl

/-! ## Runs that grow

A run that looks for a closing bracket asks after every token whether what it
has is balanced. It must not stop too early, and it must not run past the end.
Balanced tokens prevent both: if a shorter run were balanced with the bracket
behind it, that bracket would close something that is not open
(`Balanced.grow_upTo`). What looks for a token that is no bracket is easier, as
the run does not have that token at all. -/

/-- The beginning of tokens that no closer spoils is not spoilt either. -/
theorem exists_openAfter_of_append {stack left : List Bracket}
    (h : openAfter stack (a ++ b) = some left) :
    ∃ mid, openAfter stack a = some mid ∧ openAfter mid b = some left := by
  rw [openAfter_append] at h
  exact Option.bind_eq_some_iff.1 h

/-- A run that is balanced stops in front of what it looks for. -/
theorem upTo_eq_accept {run : List Token} (h : nesting run = some 0)
    (stop : Token) :
    upTo stop run (some stop) = .accept := by
  rw [upTo, h]
  exact if_pos ⟨rfl, rfl⟩

/-- And it goes on as long as something is open, or something else follows. -/
theorem upTo_eq_undecided {run : List Token} {depth : Nat}
    (h : nesting run = some depth) (hgoes : ¬(depth = 0 ∧ t = stop)) :
    upTo stop run (some t) = .undecided := by
  rw [upTo, h]
  dsimp only
  rw [if_neg fun hends => hgoes ⟨hends.1, Option.some.inj hends.2⟩,
    if_neg nofun]

/-- A run that is balanced with the tokens behind it takes them all, if it is
not balanced in front of an earlier `stop`. The induction is on what is still
to be taken; what has been taken is carried along, since balance is asked of
it. -/
theorem grow_upTo_of_openAfter (run : List Token)
    (h : openAfter [] (run ++ ts) = some [])
    (hstop : ∀ a b, ts = a ++ stop :: b → openAfter [] (run ++ a) ≠ some [])
    (hne : ts ≠ []) (rest : List Token) :
    grow (upTo stop) run (ts ++ stop :: rest)
    = some (run.length + ts.length) := by
  induction ts generalizing run with
  | nil => exact absurd rfl hne
  | cons t ts ih =>
    rw [List.append_cons] at h
    obtain ⟨mid, hmid, hleft⟩ := exists_openAfter_of_append h
    have hnesting : nesting (run ++ [t]) = some mid.length :=
      congrArg (Option.map _) hmid
    rw [List.cons_append, grow]
    cases ts with
    | nil =>
      -- The run has come to its end, and nothing is open there.
      obtain rfl : mid = [] := Option.some.inj hleft
      rw [List.nil_append, List.head?_cons, upTo_eq_accept hnesting]
      rfl
    | cons t' ts =>
      have hgoes : ¬(mid.length = 0 ∧ t' = stop) := by
        rintro ⟨hlength, rfl⟩
        obtain rfl := List.eq_nil_of_length_eq_zero hlength
        exact hstop [t] ts rfl hmid
      rw [List.cons_append, List.head?_cons, upTo_eq_undecided hnesting hgoes]
      have hstop' : ∀ a b, t' :: ts = a ++ stop :: b →
          openAfter [] (run ++ [t] ++ a) ≠ some [] := by
        intro a b hab
        rw [List.append_assoc]
        exact hstop (t :: a) b (congrArg (t :: ·) hab)
      refine (ih _ h hstop' (List.cons_ne_nil t' ts)).trans ?_
      rw [List.length_append, Nat.add_assoc, Nat.add_comm [t].length]
      rfl

/-- **A run grows up to the bracket that closes it.** -/
theorem Balanced.grow_upTo (h : Balanced ts)
    (hstop : Bracket.closed? stop = some kind) (hne : ts ≠ [])
    (rest : List Token) :
    grow (upTo stop) [] (ts ++ stop :: rest) = some ts.length := by
  -- An earlier one would close what is not open.
  have hearlier : ∀ a b, ts = a ++ stop :: b →
      openAfter [] ([] ++ a) ≠ some [] := by
    rintro a b rfl ha
    have hall := h []
    rw [openAfter_append, show openAfter [] a = some [] from ha,
      Option.bind_some, openAfter_closer hstop] at hall
    cases hall
  have hgrow := grow_upTo_of_openAfter [] (h []) hearlier hne rest
  rwa [List.length_nil, Nat.zero_add] at hgrow

/-- It grows up to any token that it does not have itself. -/
theorem Balanced.grow_upTo_of_not_mem (h : Balanced ts) (hstop : stop ∉ ts)
    (hne : ts ≠ []) (rest : List Token) :
    grow (upTo stop) [] (ts ++ stop :: rest) = some ts.length := by
  have hearlier : ∀ a b, ts = a ++ stop :: b →
      openAfter [] ([] ++ a) ≠ some [] := by
    rintro a b rfl
    exact absurd (by simp) hstop
  have hgrow := grow_upTo_of_openAfter [] (h []) hearlier hne rest
  rwa [List.length_nil, Nat.zero_add] at hgrow

/-- Where the bracket comes at once nothing is in front of it. -/
theorem grow_closer (hstop : Bracket.closed? stop = some kind)
    (rest : List Token) :
    grow (upTo stop) [] (stop :: rest) = none := by
  have hnesting : nesting [stop] = none := by
    rw [nesting, openAfter_closer hstop]
    rfl
  rw [grow, List.nil_append, upTo, hnesting]

/-- What a run has grown to is balanced, and `stop` follows it. -/
theorem exists_of_grow_upTo {run : List Token} {n : Nat}
    (h : grow (upTo stop) run ts = some n) :
    ∃ inner rest, ts = inner ++ stop :: rest ∧ inner ≠ [] ∧
      n = run.length + inner.length ∧
      nesting (run ++ inner) = some 0 := by
  induction ts generalizing run with
  | nil => cases h
  | cons t ts ih =>
    rw [grow] at h
    split at h
    · cases h
    · next hverdict =>
      obtain rfl := Option.some.inj h
      obtain ⟨hnesting, hnext⟩ : nesting (run ++ [t]) = some 0 ∧
          ts.head? = some stop := by
        unfold upTo at hverdict
        split at hverdict
        · cases hverdict
        · next hnesting =>
          split at hverdict
          · next hends => exact ⟨hends.1 ▸ hnesting, hends.2⟩
          · split at hverdict <;> cases hverdict
      obtain ⟨rest, rfl⟩ : ∃ rest, ts = stop :: rest := by
        cases ts with
        | nil => cases hnext
        | cons t' rest => exact ⟨rest, by rw [Option.some.inj hnext]⟩
      exact ⟨[t], rest, rfl, List.cons_ne_nil t [], rfl, hnesting⟩
    · obtain ⟨inner, rest, rfl, -, rfl, hnesting⟩ := ih h
      rw [List.append_assoc] at hnesting
      refine ⟨t :: inner, rest, rfl, List.cons_ne_nil t inner, ?_, hnesting⟩
      rw [List.length_append, List.length_cons, List.length_nil,
        List.length_cons]
      omega

/-! ## Lists that are split

A list is split at a separator where no bracket is open. Splitting counts how
many are open and not which, so it is defined for all tokens, balanced or not,
and putting the separators back always gives the tokens again.

To see where a list is not split, tokens are followed through the splitting.
`Sealed` says that splitting passes over them, whatever has been begun before
and whatever follows: a token that is no bracket and no separator is sealed,
and so is everything in brackets, for the separator does not separate at a
greater depth. Of sealed parts with separators between them splitting makes the
parts. -/

theorem intercalate_cons (part : List Token) {parts : List (List Token)}
    (h : parts ≠ []) :
    List.intercalate [sep] (part :: parts)
    = part ++ sep :: List.intercalate [sep] parts := by
  obtain ⟨part', parts, rfl⟩ := List.exists_cons_of_ne_nil h
  simp [List.intercalate]

theorem eq_or_exists_of_mem_intercalate {parts : List (List Token)}
    (h : t ∈ List.intercalate [sep] parts) :
    t = sep ∨ ∃ part ∈ parts, t ∈ part := by
  induction parts with
  | nil => cases h
  | cons part parts ih =>
    cases parts with
    | nil => exact .inr ⟨part, List.mem_singleton_self part, by simpa using h⟩
    | cons part' parts =>
      rw [intercalate_cons part (List.cons_ne_nil part' parts), List.mem_append,
        List.mem_cons] at h
      obtain h | h | h := h
      · exact .inr ⟨part, List.mem_cons_self, h⟩
      · exact .inl h
      · obtain h | ⟨p, hp, ht⟩ := ih h
        · exact .inl h
        · exact .inr ⟨p, List.mem_cons_of_mem part hp, ht⟩

section Split

variable {depth : Nat} {begun : List Token}

/-- An opener leads one deeper, -/
theorem splitFrom_opener (ho : Bracket.opened? t = some kind) :
    splitFrom sep depth begun (t :: ts) = splitFrom sep (depth + 1) (t :: begun)
      ts := by
  rw [splitFrom, ho]
  rfl

/-- a closer leads back, -/
theorem splitFrom_closer (hc : Bracket.closed? t = some kind) :
    splitFrom sep depth begun (t :: ts) = splitFrom sep (depth - 1) (t :: begun)
      ts := by
  rw [splitFrom, opened?_of_closed? hc, hc]
  rfl

/-- any other token goes into the part that has begun, -/
theorem splitFrom_plain (ho : Bracket.opened? t = none)
    (hc : Bracket.closed? t = none) (h : ¬(t = sep ∧ depth = 0)) :
    splitFrom sep depth begun (t :: ts)
    = splitFrom sep depth (t :: begun) ts := by
  rw [splitFrom, ho, hc]
  exact if_neg h

/-- and a separator outside brackets ends it. -/
theorem splitFrom_sep (ho : Bracket.opened? sep = none)
    (hc : Bracket.closed? sep = none) :
    splitFrom sep 0 begun (sep :: ts) = begun.reverse :: splitFrom sep 0 []
    ts := by
  rw [splitFrom, ho, hc]
  exact if_pos (And.intro rfl rfl)

/-- There is always a part. -/
theorem splitFrom_ne_nil (sep : Token) (depth : Nat) (begun ts : List Token) :
    splitFrom sep depth begun ts ≠ [] := by
  induction ts generalizing depth begun with
  | nil => exact List.cons_ne_nil _ _
  | cons t ts ih =>
    rw [splitFrom]
    split
    · exact ih _ _
    · split
      · exact ih _ _
      · split
        · exact List.cons_ne_nil _ _
        · exact ih _ _

/-- Putting the separators back gives the tokens again. What has been begun of
the first part is in front of them. -/
theorem intercalate_splitFrom (sep : Token) (depth : Nat)
    (begun ts : List Token) :
    List.intercalate [sep] (splitFrom sep depth begun ts)
    = begun.reverse ++ ts := by
  induction ts generalizing depth begun with
  | nil => simp [splitFrom, List.intercalate]
  | cons t ts ih =>
    have hkeep : (t :: begun).reverse ++ ts = begun.reverse ++ t :: ts := by
      rw [List.reverse_cons, List.append_assoc, List.singleton_append]
    rw [splitFrom]
    split
    · exact (ih _ _).trans hkeep
    · split
      · exact (ih _ _).trans hkeep
      · split
        · next hsep =>
          rw [intercalate_cons _ (splitFrom_ne_nil sep depth [] ts), ih, hsep.1]
          rfl
        · exact (ih _ _).trans hkeep

end Split

/-- **Splitting loses nothing.** -/
theorem intercalate_splitTopLevel (sep : Token) (ts : List Token) :
    List.intercalate [sep] (splitTopLevel sep ts) = ts :=
  intercalate_splitFrom sep 0 [] ts

/-- **Tokens that are not split** at a depth, nor below it. The depth is that
at which they stand, so tokens that have the separator can be sealed in
brackets though they are not outside. -/
def Sealed (sep : Token) (least : Nat) (ts : List Token) : Prop :=
  ∀ depth begun rest, least ≤ depth →
    splitFrom sep depth begun (ts ++ rest)
    = splitFrom sep depth (ts.reverse ++ begun) rest

theorem Sealed.append {least : Nat} (ha : Sealed sep least a)
    (hb : Sealed sep least b) :
    Sealed sep least (a ++ b) := by
  intro depth begun rest hle
  rw [List.append_assoc, ha depth begun _ hle, hb depth _ rest hle,
    List.reverse_append, List.append_assoc]

theorem Sealed.mono {least least' : Nat} (h : Sealed sep least ts)
    (hle : least ≤ least') :
    Sealed sep least' ts :=
  fun depth begun rest hdepth => h depth begun rest (Nat.le_trans hle hdepth)

/-- A token that is neither a bracket nor the separator. -/
theorem sealed_token (ho : Bracket.opened? t = none)
    (hc : Bracket.closed? t = none) (hsep : t ≠ sep) : Sealed sep 0 [t] := by
  intro depth begun rest _
  exact splitFrom_plain ho hc fun h => hsep h.1

/-- In brackets the separator does not separate. -/
theorem sealed_sep (ho : Bracket.opened? sep = none)
    (hc : Bracket.closed? sep = none) :
    Sealed sep 1 [sep] := by
  intro depth begun rest hle
  exact splitFrom_plain ho hc fun h => Nat.ne_of_gt hle h.2

/-- **Brackets seal what stands in them.** -/
theorem Sealed.enclosed (ho : Bracket.opened? opener = some kind)
    (hc : Bracket.closed? closer = some kind) (h : Sealed sep 1 ts) :
    Sealed sep 0 (opener :: (ts ++ [closer])) := by
  intro depth begun rest _
  rw [List.cons_append, splitFrom_opener ho, List.append_assoc,
    h (depth + 1) _ _ (Nat.le_add_left 1 depth), List.singleton_append,
    splitFrom_closer hc,
    Nat.add_sub_cancel, List.reverse_cons, List.reverse_append]
  simp only [List.reverse_singleton, List.append_assoc, List.cons_append,
    List.nil_append]

/-- The depth that splitting counts is that of the stack. This is true as long
as no closer is spoilt, because a spoilt one would be counted as well. -/
theorem splitFrom_of_openAfter {stack left : List Bracket} (hsep : sep ∉ ts)
    (h : openAfter stack ts = some left) (begun rest : List Token) :
    splitFrom sep stack.length begun (ts ++ rest)
      = splitFrom sep left.length (ts.reverse ++ begun) rest := by
  induction ts generalizing stack begun with
  | nil =>
    rw [Option.some.inj h]
    rfl
  | cons t ts ih =>
    obtain ⟨hne, hsep⟩ : sep ≠ t ∧ sep ∉ ts := by simpa using hsep
    rw [openAfter] at h
    rw [List.reverse_cons, List.append_assoc, List.cons_append]
    cases ho : Bracket.opened? t with
    | some b =>
      rw [ho] at h
      rw [splitFrom_opener ho]
      exact ih hsep h (t :: begun)
    | none =>
      rw [ho] at h
      cases hc : Bracket.closed? t with
      | none =>
        rw [hc] at h
        rw [splitFrom_plain ho hc fun heq => hne heq.1.symm]
        exact ih hsep h (t :: begun)
      | some b =>
        rw [hc] at h
        rw [splitFrom_closer hc]
        cases stack with
        | nil => cases h
        | cons top stack =>
          dsimp only at h
          split at h
          · exact ih hsep h (t :: begun)
          · cases h

/-- **Balanced tokens are sealed** against a separator that they do not have. -/
theorem Balanced.sealed (h : Balanced ts) (hsep : sep ∉ ts) :
    Sealed sep 0 ts := by
  intro depth begun rest _
  -- Any stack of that depth will do.
  have hsplit :=
    splitFrom_of_openAfter hsep (h (List.replicate depth .round)) begun rest
  rwa [List.length_replicate] at hsplit

/-- Sealed tokens are one part. -/
theorem Sealed.splitTopLevel (h : Sealed sep 0 ts) :
    splitTopLevel sep ts = [ts] := by
  have hsplit := h 0 [] [] (Nat.le_refl 0)
  rw [List.append_nil, List.append_nil] at hsplit
  show splitFrom sep 0 [] ts = [ts]
  rw [hsplit, splitFrom, List.reverse_reverse]

/-- A separator behind them ends it. -/
theorem Sealed.splitTopLevel_cons (h : Sealed sep 0 ts)
    (ho : Bracket.opened? sep = none) (hc : Bracket.closed? sep = none)
    (rest : List Token) :
    Pattern.splitTopLevel sep (ts ++ sep :: rest)
    = ts :: Pattern.splitTopLevel sep rest := by
  show splitFrom sep 0 [] (ts ++ sep :: rest) = _
  rw [h 0 [] _ (Nat.le_refl 0), splitFrom_sep ho hc, List.append_nil,
    List.reverse_reverse]
  rfl

/-- **Sealed parts with separators behind them** are cut off. -/
theorem splitTopLevel_intercalate_append {parts : List (List Token)}
    (ho : Bracket.opened? sep = none) (hc : Bracket.closed? sep = none)
    (h : ∀ part ∈ parts, Sealed sep 0 part) (ts : List Token) :
    Pattern.splitTopLevel sep (List.intercalate [sep] (parts ++ [ts]))
      = parts ++ Pattern.splitTopLevel sep ts := by
  induction parts with
  | nil => rw [List.nil_append, List.intercalate_singleton, List.nil_append]
  | cons part parts ih =>
    obtain ⟨hpart, hparts⟩ := List.forall_mem_cons.1 h
    rw [List.cons_append,
      intercalate_cons part (List.append_ne_nil_of_right_ne_nil parts
      (List.cons_ne_nil ts [])), hpart.splitTopLevel_cons ho hc, ih hparts,
      List.cons_append]

/-- Sealed parts with separators between them are split into themselves. -/
theorem splitTopLevel_intercalate {parts : List (List Token)} (hne : parts ≠ [])
    (ho : Bracket.opened? sep = none) (hc : Bracket.closed? sep = none)
    (h : ∀ part ∈ parts, Sealed sep 0 part) :
    Pattern.splitTopLevel sep (List.intercalate [sep] parts) = parts := by
  obtain ⟨parts, part, rfl⟩ := (List.eq_nil_or_concat' parts).resolve_left hne
  obtain ⟨hparts, hpart⟩ := List.forall_mem_append.1 h
  rw [splitTopLevel_intercalate_append ho hc hparts,
    (hpart part (List.mem_singleton_self part)).splitTopLevel]

end StreamScript.Pattern
