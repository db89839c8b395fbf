import Mathlib.Data.List.Basic
import Mathlib.Data.List.TakeDrop
import StreamScript.Regex.Replace

/-!
# The steps of matching are enough

Three loops of the expressions are counted: the threads of an automaton are
followed, the matches of a text are looked for, and a pattern is read, each in
a number of steps that is given from outside. The numbers are no bounds. This
module proves of each loop that any two numbers that cover what is left to do
give the same result, and that the number it is given covers that. So where a
loop ends for want of steps it has nothing left to do, and the result is that
of the loop run to its end.

What is left to do is measured differently in the three. A thread that is
followed to a new state may put two others on the stack, so a state not reached
yet counts for two (`follow_of_le`). A match may be empty, and then the search
does not move; but it does not end where the one before has ended, so an empty
match is paid for once at every place (`matchesFrom_of_le`). And of a pattern
every step takes a character at least (`readPattern_of_le`).
-/

namespace StreamScript.Regex

/-! ## Following threads

Threads that need no character are followed until they wait for one. The stack
holds those that are still to be followed, the preferred one on top, and a
state that has been reached is not reached again. Every step takes one thread
from the stack; it puts two on it at most, and only if it has reached a new
state. So the threads on the stack and twice the unreached states become fewer
with every step. -/

section Following

variable {a : Automaton} {place : Place} {stack found : List Thread}
  {seen : Array Bool}

/-- How many states have not been reached. -/
def unreached (seen : Array Bool) : Nat :=
  seen.countP (!·)

/-- Reaching a state leaves one less. -/
theorem unreached_set {n : Nat} (h : seen[n]?.getD true = false) :
    unreached (seen.setIfInBounds n true) + 1 = unreached seen := by
  obtain ⟨hn, hfalse⟩ : ∃ hn : n < seen.size, seen[n] = false := by
    rcases Nat.lt_or_ge n seen.size with hn | hn
    · exact ⟨hn, by simpa [hn] using h⟩
    · simp [hn] at h
  have hpos : 0 < seen.countP (!·) :=
    Array.countP_pos_iff.2 ⟨seen[n], Array.getElem_mem hn, by rw [hfalse]; rfl⟩
  rw [unreached, unreached, Array.setIfInBounds, dif_pos hn,
    Array.countP_set, hfalse]
  simp only [Bool.not_false, Bool.not_true, Bool.false_eq_true, if_true,
    if_false]
  omega

/-- **Enough steps to follow threads**: one for each on the stack, and two for
each state that has not been reached. The induction is on the one number of
steps, and the other is generalized, so that both are used up together. -/
theorem follow_of_le {fuel fuel' : Nat}
    (h : stack.length + 2 * unreached seen ≤ fuel)
    (h' : stack.length + 2 * unreached seen ≤ fuel') :
    follow a place fuel stack seen found
    = follow a place fuel' stack seen found := by
  induction fuel generalizing fuel' stack seen found with
  | zero =>
    obtain rfl : stack = [] := List.eq_nil_of_length_eq_zero (by omega)
    cases fuel' <;> rfl
  | succ fuel ih =>
    cases stack with
    | nil => cases fuel' <;> rfl
    | cons t stack =>
      rw [List.length_cons] at h h'
      obtain ⟨fuel', rfl⟩ : ∃ n, fuel' = n + 1 := ⟨fuel' - 1, by omega⟩
      unfold follow
      split
      · exact ih (by omega) (by omega)
      · next hnew =>
        have hless := unreached_set (eq_false_of_ne_true hnew)
        have hpush : ∀ (pushed : List Thread) {arrived : List Thread},
            pushed.length ≤ 2 →
            follow a place fuel (pushed ++ stack)
              (seen.setIfInBounds t.state true) arrived
              = follow a place fuel' (pushed ++ stack)
                (seen.setIfInBounds t.state true) arrived := by
          intro pushed arrived hle
          exact ih (by rw [List.length_append]; omega)
            (by rw [List.length_append]; omega)
        dsimp only
        split
        · exact hpush [] (Nat.zero_le 2)
        · exact hpush [] (Nat.zero_le 2)
        · split
          · exact hpush [_] (by simp)
          · exact hpush [] (Nat.zero_le 2)
        · exact hpush [_] (by simp)
        · exact hpush [_, _] (by simp)
        · exact hpush [] (Nat.zero_le 2)

/-- **The threads at a place** are followed to their ends, in any number of
steps that is enough for those to follow and twice the states. A thread that is
followed to a state not reached before takes the state off those that can still
be reached and puts at most two threads in its place. -/
theorem follow_eq_arrivals {threads : List Thread} {fuel : Nat}
    (h : threads.length + 2 * a.states.size ≤ fuel) :
    follow a place fuel threads (Array.replicate a.states.size false) []
      = arrivals a place threads := by
  have hunreached : unreached (Array.replicate a.states.size false)
      = a.states.size := by
    simp [unreached, Array.countP_replicate]
  exact follow_of_le (by omega) (by omega)

/-- **What holds of the slots of all threads** holds of those that arrive, if
remembering the place keeps it. Nothing is asked of the number of steps here.
-/
theorem forall_mem_follow {Q : Slots → Prop}
    (hremember : ∀ slots slot, Q slots →
      Q (Slots.remember slots slot place.pos))
    {fuel : Nat} (hstack : ∀ t ∈ stack, Q t.slots)
    (hfound : ∀ t ∈ found, Q t.slots) :
    ∀ t ∈ follow a place fuel stack seen found, Q t.slots := by
  induction fuel generalizing stack seen found with
  | zero => exact fun t ht => hfound t (List.mem_reverse.1 ht)
  | succ fuel ih =>
    cases stack with
    | nil => exact fun t ht => hfound t (List.mem_reverse.1 ht)
    | cons t stack =>
      obtain ⟨ht, hrest⟩ := List.forall_mem_cons.1 hstack
      unfold follow
      split
      · exact ih hrest hfound
      · dsimp only
        split
        · exact ih hrest (List.forall_mem_cons.2 ⟨ht, hfound⟩)
        · exact ih hrest (List.forall_mem_cons.2 ⟨ht, hfound⟩)
        · split
          · exact ih (List.forall_mem_cons.2 ⟨ht, hrest⟩) hfound
          · exact ih hrest hfound
        · exact ih (List.forall_mem_cons.2 ⟨hremember _ _ ht, hrest⟩) hfound
        · exact ih
            (List.forall_mem_cons.2 ⟨ht, List.forall_mem_cons.2 ⟨ht, hrest⟩⟩)
            hfound
        · exact ih hrest hfound

end Following

/-! ## The matches of a text

A match lies between the place where it was looked for and the end of the text,
since all that threads remember are places that they have come through. -/

/-- **Slots that remember places of a stretch** of a text only. This is what
bounds a match from both sides, and it is kept by every step of a search,
because a thread remembers nothing but the place where it is. -/
def Slots.Within (slots : Slots) (first last : Nat) : Prop :=
  ∀ slot p, slots.at? slot = some p → first ≤ p ∧ p ≤ last

section Matches

variable {a : Automaton} {slots : Slots} {first last pos : Nat}

/-- Nothing has been remembered yet. -/
theorem Slots.within_empty : Slots.Within #[] first last := by
  intro slot p h
  simp [Slots.at?] at h

/-- Remembering a place of the stretch. -/
theorem Slots.Within.remember (h : slots.Within first last) (slot : Nat)
    (hfirst : first ≤ pos) (hlast : pos ≤ last) :
    Slots.Within (Slots.remember slots slot pos) first last := by
  intro n p hp
  unfold Slots.remember Slots.at? at hp
  rw [Array.getElem?_setIfInBounds] at hp
  split at hp
  · split at hp
    · obtain rfl := Option.some.inj hp
      exact ⟨hfirst, hlast⟩
    · cases hp
  · -- the slots added on the right remember nothing
    rw [Array.getElem?_append] at hp
    split at hp
    · exact h n p hp
    · rw [Array.getElem?_replicate] at hp
      split at hp <;> cases hp

/-- What a place makes of the best match and of the threads preferred to it. A
match ends where the thread stands that has come to its end, and the other
threads only remember places before. -/
theorem settle_within {best : Option Slots} {threads : List Thread}
    {before : Option Char} {rest : List Char} (hfirst : first ≤ pos)
    (hlast : pos ≤ last)
    (hbest : ∀ slots, best = some slots → slots.Within first last)
    (hthreads : ∀ t ∈ threads, t.slots.Within first last) :
    (∀ slots, (runFrom.settle a best pos before rest threads).1 = some slots →
      slots.Within first last) ∧
    ∀ t ∈ (runFrom.settle a best pos before rest threads).2,
      t.slots.Within first last := by
  let begun := if best.isSome then threads else threads ++ [⟨a.start, #[]⟩]
  have hbegun : ∀ t ∈ begun, t.slots.Within first last := by
    dsimp only [begun]
    split
    · exact hthreads
    · exact List.forall_mem_append.2
        ⟨hthreads, List.forall_mem_singleton.2 Slots.within_empty⟩
  have hhere : ∀ t ∈ arrivals a ⟨pos, before, rest⟩ begun,
      t.slots.Within first last :=
    forall_mem_follow (Q := (Slots.Within · first last))
      (fun _ slot h => h.remember slot hfirst hlast) hbegun
      (List.forall_mem_nil _)
  unfold runFrom.settle
  dsimp only
  constructor
  · intro slots hslots
    split at hslots
    · next t hfind =>
      obtain rfl := Option.some.inj hslots
      exact hhere t (List.mem_of_find?_eq_some hfind)
    · exact hbest slots hslots
  · exact fun t ht => hhere t (List.takeWhile_subset _ ht)

/-- **A match lies between the place where it is looked for and the end.**
Threads begin at `first` or behind it, and the search goes on to the end of the
text. -/
theorem runFrom_within {best : Option Slots} {threads : List Thread}
    {before : Option Char} {rest : List Char} (hfirst : first ≤ pos)
    (hlast : last = pos + rest.length)
    (hbest : ∀ slots, best = some slots → slots.Within first last)
    (hthreads : ∀ t ∈ threads, t.slots.Within first last)
    (h : runFrom a best threads pos before rest = some slots) :
    slots.Within first last := by
  have hhere := @settle_within a first last pos best threads before rest hfirst
    (by omega) hbest hthreads
  induction rest generalizing best threads pos before with
  | nil => exact hhere.1 slots h
  | cons c rest ih =>
    rw [List.length_cons] at hlast
    unfold runFrom at h
    dsimp only at h
    split at h
    · exact hhere.1 slots h
    · have htaken :
          ∀ t ∈ (runFrom.settle a best pos before (c :: rest)
            threads).2.filterMap (Thread.take? a c),
            t.slots.Within first last := by
        intro t ht
        obtain ⟨t', ht', htake⟩ := List.mem_filterMap.1 ht
        unfold Thread.take? at htake
        split at htake
        · split at htake
          · obtain rfl := Option.some.inj htake
            exact hhere.2 t' ht'
          · cases htake
        · cases htake
      exact ih (Nat.le_succ_of_le hfirst) (by omega) hhere.1 htaken h
        (settle_within (Nat.le_succ_of_le hfirst) (by omega) hhere.1 htaken)

/-- A search begins with a single thread that has remembered nothing, so all
that it finds lies behind the place where it begins. -/
theorem search_within {place : Place} (h : a.search place = some slots) :
    slots.Within place.pos (place.pos + place.rest.length) := by
  refine runFrom_within (Nat.le_refl _) rfl ?_ (List.forall_mem_nil _) h
  exact fun _ hno => nomatch hno

/-! ### The matches one after the other

A match that is found is taken from the text, and the search goes on behind it.
Where a match is empty the place stays the same, and the next match must then
be another one: it may not end where the last one has ended. So as long as one
may still end at the place itself, one more is counted than there are
characters (`matchesLeft`). -/

variable {re : Regex} {lastEnd : Option Nat} {place : Place}

/-- Places that lie so far apart. -/
theorem Place.skip_eq {n : Nat} (hn : n ≤ place.rest.length) :
    (place.skip n).pos = place.pos + n ∧
      (place.skip n).rest.length + n = place.rest.length := by
  induction n generalizing place with
  | zero => exact ⟨rfl, rfl⟩
  | succ n ih =>
    obtain ⟨pos, before, rest⟩ := place
    cases rest with
    | nil => exact absurd hn (Nat.not_succ_le_zero n)
    | cons c rest =>
      obtain ⟨hpos, hrest⟩ :=
        @ih ⟨pos + 1, some c, rest⟩ (Nat.le_of_succ_le_succ hn)
      rw [Place.skip, hpos, List.length_cons, ← hrest]
      exact ⟨by simp only; omega, by omega⟩

/-- The ends of a match. -/
theorem Slots.Within.group {n : Nat} {ends : Nat × Nat}
    (h : slots.Within first last) (hgroup : slots.group? n = some ends) :
    (first ≤ ends.1 ∧ ends.1 ≤ last) ∧ first ≤ ends.2 ∧ ends.2 ≤ last := by
  unfold Slots.group? at hgroup
  obtain ⟨i, hi, hgroup⟩ := Option.bind_eq_some_iff.1 hgroup
  obtain ⟨j, hj, hgroup⟩ := Option.bind_eq_some_iff.1 hgroup
  obtain rfl := Option.some.inj hgroup
  exact ⟨h _ i hi, h _ j hj⟩

/-- **The next match takes the search on**: it does not end where the one
before has ended, and behind it there is so much less of the text. The last
part excludes an empty match at the very place where the last one has ended;
there the search moves on by one character instead. -/
theorem nextMatch?_end (h : nextMatch? re lastEnd place = some slots)
    (hgroup : slots.group? 0 = some (first, last)) :
    place.pos ≤ last ∧ last ≤ place.pos + place.rest.length ∧
      ¬ (last = place.pos ∧ lastEnd = some place.pos) := by
  unfold nextMatch? at h
  obtain ⟨found, hfound, h⟩ := Option.bind_eq_some_iff.1 h
  obtain ⟨⟨first', last'⟩, hends, h⟩ := Option.bind_eq_some_iff.1 h
  have hwithin := (search_within hfound).group hends
  dsimp only at h hwithin
  split at h
  · next hempty =>
    split at h
    · cases h
    · next hmore =>
      -- behind an empty match where the last one ended, the search begins
      -- further on
      rw [List.isEmpty_iff] at hmore
      have hskip := Place.skip_eq (n := 1) (List.length_pos_iff.2 hmore)
      have hwithin' := (search_within h).group hgroup
      dsimp only at hwithin'
      exact ⟨by omega, by omega, by omega⟩
  · next hnot =>
    obtain rfl := Option.some.inj h
    obtain ⟨rfl, rfl⟩ := Prod.mk.inj (Option.some.inj (hends.symm.trans hgroup))
    refine ⟨hwithin.2.1, hwithin.2.2, fun ⟨hstays, hlast⟩ => hnot ?_⟩
    exact ⟨hstays ▸ hwithin.1.1, hstays ▸ hlast.symm⟩

/-- How many matches there may be yet, at most. -/
def matchesLeft (lastEnd : Option Nat) (place : Place) : Nat :=
  place.rest.length + if lastEnd = some place.pos then 0 else 1

/-- A match leaves fewer that there may be. -/
theorem matchesLeft_lt (h : nextMatch? re lastEnd place = some slots)
    (hgroup : slots.group? 0 = some (first, last)) :
    matchesLeft (some last) (place.skip (last - place.pos))
    < matchesLeft lastEnd place := by
  obtain ⟨hge, hle, hmoves⟩ := nextMatch?_end h hgroup
  obtain ⟨hpos, hrest⟩ := @Place.skip_eq place (last - place.pos) (by omega)
  have hthere : (place.skip (last - place.pos)).pos = last := by omega
  unfold matchesLeft
  rw [hthere, if_pos rfl]
  split
  · next hlast =>
    have hne : last ≠ place.pos := fun hstays => hmoves ⟨hstays, hlast⟩
    omega
  · omega

/-- **Enough steps to find the matches.** The search fails to move at most once
at every place, and otherwise leaves fewer characters. What is counted is
`matchesLeft`: the characters that are left, and one more unless the last match
has ended where the search stands. -/
theorem matchesFrom_of_le {fuel fuel' : Nat} (h : matchesLeft lastEnd place ≤ fuel)
    (h' : matchesLeft lastEnd place ≤ fuel') :
    matchesFrom re fuel lastEnd place = matchesFrom re fuel' lastEnd place := by
  -- with nothing left there is no match to be found
  have hnone : ∀ {lastEnd place} (fuel : Nat), matchesLeft lastEnd place = 0 →
      matchesFrom re fuel lastEnd place = [] := by
    intro lastEnd place fuel hleft
    cases fuel with
    | zero => rfl
    | succ fuel =>
      unfold matchesFrom
      split
      · rfl
      · next hnext =>
        split
        · rfl
        · next hgroup =>
          exact absurd (matchesLeft_lt hnext hgroup) (hleft ▸ Nat.not_lt_zero _)
  induction fuel generalizing fuel' lastEnd place with
  | zero => rw [hnone 0 (by omega), hnone fuel' (by omega)]
  | succ fuel ih =>
    cases fuel' with
    | zero => rw [hnone _ (by omega), hnone 0 (by omega)]
    | succ fuel' =>
      unfold matchesFrom
      split
      · rfl
      · next hnext =>
        split
        · rfl
        · next hgroup =>
          have hless := matchesLeft_lt hnext hgroup
          exact congrArg _ (ih (by omega) (by omega))

/-- **The matches of a text** are found in any number of steps greater than its
length. So the number that `matchesOf` is given cuts nothing off. -/
theorem matchesFrom_eq_matchesOf {cs : List Char} {fuel : Nat}
    (h : cs.length < fuel) :
    matchesFrom re fuel none (.first cs) = matchesOf re cs := by
  have hleft : matchesLeft none (.first cs) = cs.length + 1 := by
    simp [matchesLeft, Place.first]
  exact matchesFrom_of_le (by omega) (by omega)

end Matches

/-! ## Reading a template

A template is read along its characters. Behind a reference it goes on with
what the reference has left, which is cut out of the rest. -/

/-- A reference leaves what stands behind it. Its name or its number has been
taken, and the braces around it if it has any. -/
theorem length_le_of_reference {cs left : List Char} {part : Part}
    (h : reference? cs = some (part, left)) : left.length ≤ cs.length := by
  unfold reference? at h
  split at h
  · next rest =>
    obtain ⟨⟨inside, after⟩, hbreak, hpair⟩ := Option.map_eq_some_iff.1 h
    obtain ⟨-, rfl⟩ := Prod.mk.inj hpair
    exact Nat.le_succ_of_le
      (Nat.le_of_lt (Text.length_lt_of_breakOn (by decide) hbreak))
  · rw [List.span_eq_takeWhile_dropWhile] at h
    dsimp only at h
    split at h
    · cases h
    · obtain ⟨-, rfl⟩ := Prod.mk.inj (Option.some.inj h)
      exact (List.dropWhile_suffix _).length_le

/-- **A template is read on behind a reference**, however long that was. The
definition goes on only if the reference has left no more than it was given,
and this shows that it always has. -/
theorem partsOfTemplate_reference {rest left : List Char} {part : Part}
    (hrest : ∀ cs, rest ≠ '$' :: cs) (h : reference? rest = some (part, left)) :
    partsOfTemplate ('$' :: rest) = part :: partsOfTemplate left := by
  rw [partsOfTemplate.eq_def]
  split
  · next heq => cases heq
  · next heq => exact absurd (List.cons.inj heq).2 (hrest _)
  · next heq =>
    obtain rfl := (List.cons.inj heq).2
    rw [h]
    exact if_pos (length_le_of_reference h)
  · next hnot heq =>
    obtain ⟨rfl, rfl⟩ := List.cons.inj heq
    exact (hnot rfl).elim

/-! ## Reading a pattern

Every reader takes characters from the front and hands on what is left, which is
no longer than what it was given. A step of the pattern is given what stands
behind its first character, so it takes one at least. -/

/-- **A reader that leaves at most so many characters**, if it reads at all. It
is the one statement that is made of every reader of the syntax: what it leaves
it has not made longer, and most leave less. -/
def LeavesAtMost {β : Type} (n : Nat) (x : Option (β × List Char)) : Prop :=
  ∀ b rest, x = some (b, rest) → rest.length ≤ n

namespace LeavesAtMost

variable {β γ : Type} {n m : Nat} {x : Option (β × List Char)}

theorem none : LeavesAtMost n (none : Option (β × List Char)) :=
  fun _ _ h => nomatch h

theorem some {b : β} {rest : List Char} (h : rest.length ≤ n) :
    LeavesAtMost n (some (b, rest)) := by
  rintro _ _ ⟨⟩
  exact h

theorem mono (hx : LeavesAtMost n x) (h : n ≤ m) : LeavesAtMost m x :=
  fun b rest heq => Nat.le_trans (hx b rest heq) h

theorem bind {f : β × List Char → Option (γ × List Char)}
    (hx : LeavesAtMost n x)
    (hf : ∀ b rest, rest.length ≤ n → LeavesAtMost n (f (b, rest))) :
    LeavesAtMost n (x.bind f) := by
  intro c rest heq
  obtain ⟨⟨b, rest'⟩, hsome, hnext⟩ := Option.bind_eq_some_iff.1 heq
  exact hf b rest' (hx b rest' hsome) c rest hnext

/-- What is read in between may take nothing from the text. -/
theorem after {α : Type} {y : Option α} {f : α → Option (γ × List Char)}
    (hf : ∀ a, LeavesAtMost n (f a)) : LeavesAtMost n (y.bind f) := by
  intro c rest heq
  obtain ⟨a, -, hnext⟩ := Option.bind_eq_some_iff.1 heq
  exact hf a c rest hnext

/-- What has been read may be made into something else. -/
theorem map {f : β × List Char → γ × List Char} (hx : LeavesAtMost n x)
    (hf : ∀ b rest, (f (b, rest)).2 = rest) : LeavesAtMost n (x.map f) := by
  intro c rest heq
  obtain ⟨⟨b, rest'⟩, hsome, hpair⟩ := Option.map_eq_some_iff.1 heq
  obtain rfl : rest' = rest := (hf b rest').symm.trans (congrArg Prod.snd hpair)
  exact hx b rest' hsome

/-- What is made of something else comes with the rest that is given. -/
theorem map_const {α : Type} {y : Option α} {f : α → β} {rest : List Char}
    (h : rest.length ≤ n) : LeavesAtMost n (y.map fun a => (f a, rest)) := by
  intro b left heq
  obtain ⟨a, -, hpair⟩ := Option.map_eq_some_iff.1 heq
  exact (Prod.mk.inj hpair).2 ▸ h

end LeavesAtMost

section Reading

variable {flags : Flags} {cs : List Char} {n : Nat}

/-- Blanks and comments, which a pattern may hold between its parts, are
skipped. -/
theorem length_skipBlanks_le (comment : Bool) :
    (skipBlanks comment cs).length ≤ cs.length := by
  fun_induction skipBlanks comment cs <;>
    simp only [List.length_cons, List.length_nil] at * <;>
    omega

theorem Flags.length_past_le (flags : Flags) (cs : List Char) :
    (flags.past cs).length ≤ cs.length := by
  unfold Flags.past
  split
  · exact length_skipBlanks_le false
  · exact Nat.le_refl _

theorem Flags.past_nil (flags : Flags) : flags.past [] = [] := by
  unfold Flags.past
  split <;> rfl

/-- Characters of a kind are taken, at most so many. What is skipped between
them is gone as well. -/
theorem length_takeRun_le (p : Char → Bool) (most : Nat) :
    (takeRun flags p most cs).2.length ≤ cs.length := by
  induction most generalizing cs with
  | zero => exact Nat.le_refl _
  | succ most ih =>
    cases cs with
    | nil => exact Nat.le_refl _
    | cons c rest =>
      unfold takeRun
      dsimp only
      split
      · have hle := @ih (flags.past rest)
        have hpast := flags.length_past_le rest
        simp only [List.length_cons]
        omega
      · exact Nat.le_refl _

/-- A character given by its number, in a fixed number of digits or in braces.
-/
theorem leaves_readHex (width : Nat) (cs : List Char) :
    LeavesAtMost cs.length (readHex flags width cs) := by
  have hpast := flags.length_past_le cs
  unfold readHex
  split
  · next rest heq =>
    rw [heq, List.length_cons] at hpast
    have hinside := flags.length_past_le rest
    have hdigits := @length_takeRun_le flags (flags.past rest) isHexDigit
      (flags.past rest).length
    refine .after fun c => ?_
    split
    · next rest' heq' =>
      rw [heq', List.length_cons] at hdigits
      have hrest := flags.length_past_le rest'
      exact .some (by omega)
    · exact .none
  · have hdigits := @length_takeRun_le flags (flags.past cs) isHexDigit width
    refine .after fun c => ?_
    split
    · exact .some (by omega)
    · exact .none

/-- What stands in braces, up to the closing one. -/
theorem leaves_takeBraced (cs : List Char) :
    LeavesAtMost cs.length (takeBraced flags cs) := by
  have hpast := flags.length_past_le cs
  have hinside := @length_takeRun_le flags (flags.past cs) (· != '}') cs.length
  unfold takeBraced
  dsimp only
  split
  · next rest heq =>
    rw [heq, List.length_cons] at hinside
    exact .some (by omega)
  · exact .none

/-- A class that is called by its name, of one letter or in braces. -/
theorem leaves_readNamedClass (negated : Bool) (cs : List Char) :
    LeavesAtMost cs.length (readNamedClass flags negated cs) := by
  have hpast := flags.length_past_le cs
  unfold readNamedClass
  split
  · exact .none
  · split
    · exact .none
    · exact .none
    · next rest heq =>
      rw [heq, List.length_cons] at hpast
      refine ((leaves_takeBraced rest).bind fun name left hleft =>
        .after fun named =>
        .some hleft).mono (by omega)
    · next c rest _ _ heq =>
      rw [heq, List.length_cons] at hpast
      have hrest := flags.length_past_le rest
      exact .after fun _ => .some (by omega)

/-- A boundary that is called by its name. Where the braces belong to something
else nothing is taken. -/
theorem leaves_readBoundary (cs : List Char) :
    LeavesAtMost cs.length (readBoundary flags cs) := by
  unfold readBoundary
  split
  · next rest =>
    have hpast := flags.length_past_le rest
    split
    · exact .none
    · next c left heq =>
      rw [heq, List.length_cons] at hpast
      have hname :=
        @length_takeRun_le flags (c :: left) isBoundaryChar (left.length + 1)
      rw [List.length_cons] at hname
      generalize takeRun flags isBoundaryChar (left.length + 1) (c :: left)
        = run at hname ⊢
      obtain ⟨name, rest'⟩ := run
      split
      · refine .after fun look => ?_
        dsimp only at hname ⊢
        split
        · rw [List.length_cons] at hname ⊢
          exact .some (by omega)
        · exact .none
      · exact .some (Nat.le_refl _)
  · exact .some (Nat.le_refl _)

/-- What a backslash stands in front of. There are many kinds, and each of them
is read by a reader of its own. -/
theorem leaves_readEscape (cs : List Char) :
    LeavesAtMost cs.length (readEscape flags cs) := by
  have hcons :
      ∀ {β : Type} {c : Char} {rest : List Char} {x : Option (β × List Char)},
      LeavesAtMost rest.length x →
      LeavesAtMost (c :: rest).length x := fun hx =>
    hx.mono (Nat.le_succ _)
  unfold readEscape
  split
  · exact .none
  · next rest =>
    refine hcons ((leaves_readHex 2 rest).bind fun c left hleft => ?_)
    dsimp only
    split
    · exact .none
    · exact .some hleft
  · next rest => exact hcons ((leaves_readHex 4 rest).map fun _ _ => rfl)
  · next rest => exact hcons ((leaves_readHex 8 rest).map fun _ _ => rfl)
  · next rest =>
      exact hcons ((leaves_readNamedClass false rest).map fun _ _ => rfl)
  · next rest =>
      exact hcons ((leaves_readNamedClass true rest).map fun _ _ => rfl)
  · next rest => exact hcons ((leaves_readBoundary rest).map fun _ _ => rfl)
  · next c rest _ _ _ _ _ _ =>
    refine hcons ?_
    split
    · exact .some (Nat.le_refl _)
    · split
      · exact .some (Nat.le_refl _)
      · exact .some (Nat.le_refl _)
      · exact .some (Nat.le_refl _)
      · exact .none

/-! ### Brackets

A bracket holds items, ranges and other brackets. Its steps are a loop as well,
and every one of them takes a character: an item does, an operator of sets is
two characters, and a bracket that is opened or closed is at least one. -/

theorem length_tail_le {α : Type} (l : List α) : l.tail.length ≤ l.length := by
  rw [List.length_tail]
  exact Nat.sub_le _ _

/-- An opened bracket, with what it may begin with. -/
theorem leaves_openBracket (cs : List Char) :
    LeavesAtMost cs.length (openBracket flags cs) := by
  have hpast := flags.length_past_le cs
  have htail := length_tail_le (flags.past cs)
  have hpast' := flags.length_past_le (flags.past cs).tail
  unfold openBracket
  dsimp only
  generalize hafter : (if (flags.past cs).head? == some '^' then
    flags.past (flags.past cs).tail else flags.past cs) = after
  have hle : after.length ≤ cs.length := by
    rw [← hafter]
    split <;> omega
  have hrun := @length_takeRun_le flags after (· == '-') after.length
  have htail' := length_tail_le (takeRun flags (· == '-') after.length after).2
  have hpast'' :=
    flags.length_past_le (takeRun flags (· == '-') after.length after).2.tail
  split
  · exact .none
  · split
    · exact .some (by omega)
    · exact .some (by omega)

/-- A class such as `[:alpha:]`, if there is one. -/
theorem leaves_asciiBracket? (cs : List Char) :
    LeavesAtMost cs.length (asciiBracket? flags cs) := by
  unfold asciiBracket?
  split
  · next rest =>
    have htail := length_tail_le rest
    dsimp only
    generalize hafter : (if rest.head? == some '^' then rest.tail else rest)
      = after
    have hle : after.length ≤ rest.length := by
      rw [← hafter]
      split <;> omega
    split
    · next name rest' heq =>
      have hbreak := Text.length_lt_of_breakOn (by decide) heq
      rw [List.length_cons] at hbreak
      exact .map_const (by rw [List.length_cons]; omega)
    · exact .none
  · exact .none

/-- An item inside brackets takes one character at least, be it escaped or not.
-/
theorem leaves_readItem (cs : List Char) :
    LeavesAtMost (cs.length - 1) (readItem flags cs) := by
  unfold readItem
  split
  · exact .none
  · exact leaves_readEscape _
  · exact .some (Nat.le_refl _)

/-- An item or a range takes one character at least. -/
theorem leaves_readRange (cs : List Char) :
    LeavesAtMost (cs.length - 1) (readRange flags cs) := by
  unfold readRange
  refine (leaves_readItem cs).bind fun first rest hrest => ?_
  have hpast := flags.length_past_le rest
  dsimp only
  split
  · exact .none
  · next after heq =>
    rw [heq, List.length_cons] at hpast
    have hafter := flags.length_past_le after
    split
    · exact .after fun s => .some (by rw [List.length_cons]; omega)
    · refine LeavesAtMost.bind
        ((leaves_readItem (flags.past after)).mono (by omega)) ?_
      intro last rest' hrest'
      split
      · next heq' =>
        obtain ⟨-, rfl⟩ := Prod.mk.inj heq'
        exact .after fun s => .some hrest'
      · exact .none
  · next rest' _ heq =>
    exact .after fun s => .some (by omega)

/-- A step inside brackets takes one character at least. -/
theorem leaves_bracketStep (outer : List Bracket) (b : Bracket)
    (cs : List Char) :
    LeavesAtMost (cs.length - 1) (bracketStep flags outer b cs) := by
  have hpast := flags.length_past_le cs
  have hfrom : ∀ {c : Char} {rest : List Char}, flags.past cs = c :: rest →
      rest.length ≤ cs.length - 1 := by
    intro c rest heq
    rw [heq, List.length_cons] at hpast
    omega
  unfold bracketStep
  split
  · exact .none
  · next rest heq =>
    split
    · next s rest' heq' =>
      have hascii := leaves_asciiBracket? rest _ _ heq'
      exact .map_const (Nat.le_trans hascii (hfrom heq))
    · exact ((leaves_openBracket rest).map fun _ _ => rfl).mono (hfrom heq)
  · next rest heq =>
    split
    · exact .some (hfrom heq)
    · exact .some (hfrom heq)
  · next rest heq => exact .some (Nat.le_of_succ_le (hfrom heq))
  · next rest heq => exact .some (Nat.le_of_succ_le (hfrom heq))
  · next rest heq => exact .some (Nat.le_of_succ_le (hfrom heq))
  · exact ((leaves_readRange (flags.past cs)).map fun _ _ => rfl).mono
      (Nat.sub_le_sub_right hpast 1)

/-- **The steps inside brackets go on to the closing one**: no step stands
still. The definition goes on only if a step has taken something, as it has to
in order to end. This equation does not mention that any more. -/
theorem readSteps_eq (outer : List Bracket) (b : Bracket) (cs : List Char) :
    readSteps flags outer b cs = (bracketStep flags outer b cs).bind fun
      | (.closed part, rest) => some (part, rest)
      | (.go b outer, rest) => readSteps flags outer b rest := by
  rw [readSteps]
  cases hstep : bracketStep flags outer b cs with
  | none => rfl
  | some next =>
    obtain ⟨step, rest⟩ := next
    cases step with
    | closed part => rfl
    | go inner outer' =>
      have hle := leaves_bracketStep outer b cs _ _ hstep
      have hne : cs ≠ [] := by
        rintro rfl
        rw [bracketStep, flags.past_nil] at hstep
        cases hstep
      have hlt := List.length_pos_iff.2 hne
      exact if_pos (by omega)

theorem leaves_readSteps (outer : List Bracket) (b : Bracket) (cs : List Char) :
    LeavesAtMost cs.length (readSteps flags outer b cs) := by
  fun_induction readSteps flags outer b cs with
  | case1 => exact .none
  | case2 outer b cs part rest hstep =>
    exact .some (Nat.le_trans (leaves_bracketStep outer b cs _ _ hstep)
      (Nat.sub_le _ _))
  | case3 outer b cs b' outer' rest hstep hlt ih =>
    exact ih.mono (Nat.le_of_lt hlt)
  | case4 => exact .none

theorem leaves_readBracket (cs : List Char) :
    LeavesAtMost cs.length (readBracket flags cs) :=
  (leaves_openBracket cs).bind fun b rest hrest =>
    (leaves_readSteps [] b rest).mono hrest

/-! ### Groups and repetitions

A group may begin with a name or with flags, and a repetition has a count or a
range of counts in braces. What is read of them is taken from the text behind
the character that they begin with. -/

theorem length_isPrefixOf?_le {sign rest : List Char}
    (h : sign.isPrefixOf? cs = some rest) : rest.length ≤ cs.length := by
  obtain rfl := List.isPrefixOf?_eq_some_iff_append_eq.1 h
  rw [List.length_append]
  exact Nat.le_add_left _ _

/-- What a group begins with: flags, a name, or nothing. -/
theorem leaves_readGroup (r : Reading) (cs : List Char) :
    LeavesAtMost cs.length (readGroup r cs) := by
  have hpast := r.flags.length_past_le cs
  unfold readGroup
  dsimp only
  split
  · exact .none
  · split
    · next rest heq =>
      have hrest : rest.length ≤ cs.length := by
        unfold groupName? at heq
        rcases Option.or_eq_some_iff.1 heq with hprefix | ⟨-, hprefix⟩ <;>
          exact Nat.le_trans (length_isPrefixOf?_le hprefix) hpast
      refine .bind (n := cs.length) (fun name left hleft => ?_)
        fun name left hleft => ?_
      · exact Nat.le_trans
          (Nat.le_of_lt (Text.length_lt_of_breakOn (by decide) hleft)) hrest
      · dsimp only
        split
        · exact .some hleft
        · exact .none
    · next rest _ heq =>
      rw [heq, List.length_cons] at hpast
      have hsuffix := (List.dropWhile_suffix (l := rest)
        fun c => c != ':' && c != ')').length_le
      rw [List.span_eq_takeWhile_dropWhile]
      dsimp only
      split
      · next heq' =>
        rw [heq', List.length_cons] at hsuffix
        exact .some (by omega)
      · next heq' =>
        rw [heq', List.length_cons] at hsuffix
        split
        · exact .none
        · exact .some (by omega)
      · exact .none
    · next heq => exact .some hpast

/-- A count is a run of digits. -/
theorem leaves_readCount (cs : List Char) :
    LeavesAtMost cs.length (readCount flags cs) := by
  have hdrop : ∀ l : List Char, (l.dropWhile Text.isBlank).length ≤ l.length :=
    fun l =>
    (List.dropWhile_suffix _).length_le
  have hrun := @length_takeRun_le flags (cs.dropWhile Text.isBlank) Char.isDigit
    (cs.dropWhile Text.isBlank).length
  have hcs := hdrop cs
  unfold readCount
  dsimp only
  split
  · exact .none
  · have hrest :=
      hdrop (takeRun flags Char.isDigit (cs.dropWhile Text.isBlank).length
        (cs.dropWhile Text.isBlank)).2
    exact .some (Nat.le_trans (flags.length_past_le _) (by omega))

theorem length_takeMark_le (cs : List Char) :
    (takeMark cs).2.length ≤ cs.length := by
  unfold takeMark
  split
  · exact Nat.le_succ _
  · exact Nat.le_refl _

/-- A repetition with its counts, and the mark behind it that makes it
reluctant. -/
theorem leaves_readCounted (r : Reading) (cs : List Char) :
    LeavesAtMost cs.length (readCounted r cs) := by
  have hpast := r.flags.length_past_le cs
  unfold readCounted
  refine ((leaves_readCount _).mono hpast).bind fun least rest hrest => ?_
  have hend : ∀ (most : Option Nat) (left : List Char),
      left.length ≤ cs.length →
      LeavesAtMost cs.length (if most.any (· < least) then none else do
        let r' ← r.repeatLast least most (takeMark (r.flags.past left)).1
        some (r', (takeMark (r.flags.past left)).2)) := by
    intro most left hleft
    have hpast := r.flags.length_past_le left
    have hmark := length_takeMark_le (r.flags.past left)
    split
    · exact .none
    · exact .after fun r' => .some (by omega)
  dsimp only
  split
  · next rest =>
    have hpast := r.flags.length_past_le rest
    rw [List.length_cons] at hrest
    split
    · next rest' heq =>
      rw [heq, List.length_cons] at hpast
      exact hend none rest' (by omega)
    · refine LeavesAtMost.bind (n := cs.length) ?_ fun most left hleft =>
        hend most left hleft
      refine ((leaves_readCount _).mono (by omega)).bind fun most left hleft =>
        ?_
      split
      · next heq =>
        obtain ⟨-, rfl⟩ := Prod.mk.inj heq
        exact .some (Nat.le_of_succ_le hleft)
      · exact .none
  · next rest => exact hend (some least) rest (Nat.le_of_succ_le hrest)
  · exact .none

/-- **A step of a pattern** leaves at most what stands behind its first
character. So each step takes the character that it begins with, and as many
steps as there are characters are enough for a pattern. -/
theorem leaves_readStep (r : Reading) (c : Char) (rest : List Char) :
    LeavesAtMost rest.length (readStep r c rest) := by
  have hcounted : ∀ least most,
      LeavesAtMost rest.length (readStep.counted r rest least most) :=
    fun least most => .map_const (length_takeMark_le rest)
  have hatomic : ∀ atom left, left.length ≤ rest.length →
      LeavesAtMost rest.length (readStep.atomic r atom left) :=
    fun atom left hleft => .map_const hleft
  unfold readStep
  split
  · exact leaves_readGroup r rest
  · exact .map_const (Nat.le_refl _)
  · exact .some (Nat.le_refl _)
  · exact (leaves_readBracket rest).map fun _ _ => rfl
  · exact hcounted _ _
  · exact hcounted _ _
  · exact hcounted _ _
  · exact leaves_readCounted r rest
  · exact (leaves_readEscape rest).bind fun atom left hleft =>
      hatomic atom left hleft
  · exact hatomic _ _ (Nat.le_refl _)
  · exact hatomic _ _ (Nat.le_refl _)
  · exact hatomic _ _ (Nat.le_refl _)
  · exact hatomic _ _ (Nat.le_refl _)

/-- **Enough steps to read a pattern**: one for each character. A step takes
the first character, and leaves at most what is behind it. Where the steps are
used up there is no character left, so a pattern never ends for want of them.
-/
theorem readPattern_of_le {r : Reading} {fuel fuel' : Nat}
    (h : cs.length ≤ fuel) (h' : cs.length ≤ fuel') :
    readPattern fuel r cs = readPattern fuel' r cs := by
  have hnil : ∀ n r, readPattern n r [] = some r := by
    intro n r
    cases n <;> simp [readPattern, Flags.past_nil]
  induction fuel generalizing fuel' r cs with
  | zero =>
    obtain rfl := List.eq_nil_of_length_eq_zero (Nat.le_zero.1 h)
    rw [hnil, hnil]
  | succ fuel ih =>
    cases fuel' with
    | zero =>
      obtain rfl := List.eq_nil_of_length_eq_zero (Nat.le_zero.1 h')
      rw [hnil, hnil]
    | succ fuel' =>
      have hpast := r.flags.length_past_le cs
      unfold readPattern
      split
      · rfl
      · next c rest heq =>
        rw [heq, List.length_cons] at hpast
        cases hstep : readStep r c rest with
        | none => rfl
        | some next =>
          obtain ⟨r', left⟩ := next
          have hless := leaves_readStep r c rest r' left hstep
          exact @ih left r' fuel' (by omega) (by omega)

end Reading

end StreamScript.Regex
