import Mathlib.Data.List.Basic
import StreamScript.Pattern.Scan

/-!
# What a scan takes

A scan looks at a text character by character. What it takes can be said
without following it (`Scan.Takes`): a literal is the first of the texts that
the text begins with, a sequence is as short as its judge allows, and a longest
prefix is the longest of the acceptable ones. All three are equivalences
(`Scan.take?_eq_some_iff`), so that a scan takes nothing exactly if there is
nothing of the kind to take.

Of several scans the first one to take anything wins, and that too is said in
these terms (`firstPrefix_eq_some_iff`, `firstPrefix_eq_none_iff`).
-/

namespace StreamScript.Pattern

/-- **What a scan takes off the front of a text.** -/
def Scan.Takes : Scan → List Char → List Char → Prop
  | .literal texts, cs, taken =>
    ∃ front back, texts = front ++ taken :: back ∧ taken <+: cs ∧ ∀ t ∈ front,
      ¬ t <+: cs
  | .sequence judge, cs, taken =>
    taken ≠ [] ∧ ∃ rest, cs = taken ++ rest ∧ judge taken rest.head? = .accept ∧
      ∀ p q, taken = p ++ q → p ≠ [] → q ≠ [] →
        judge p (q ++ rest).head? = .undecided
  | .longest grows accepts, cs, taken =>
    taken ≠ [] ∧ taken <+: cs.takeWhile grows ∧ accepts taken = true ∧
      ∀ p, p <+: cs.takeWhile grows → accepts p = true → p.length ≤ taken.length

/-- **What the first scan of several takes** that takes anything, with what
stands beside it. -/
def FirstTakes {α : Type} (rules : List (Scan × α)) (cs : List Char) (a : α)
    (taken : List Char) : Prop :=
  ∃ front scan back, rules = front ++ (scan, a) :: back ∧ scan.Takes cs taken ∧
    ∀ rule ∈ front, ∀ p, ¬ rule.1.Takes cs p

/-! ## Growing until the judge decides

The judge is asked after every character, with the next one beside it. It may
accept, refuse, or leave the question open, and as long as it is open the text
grows. So what is taken is the shortest that is accepted, and every shorter one
was left open; had one of them been refused, nothing would be taken. -/

section Judge

variable {judge : List Char → Option Char → Verdict} {done cs taken : List Char}

/-- What has grown was undecided until it was accepted. -/
theorem exists_of_growChars (h : growChars judge done cs = some taken) :
    ∃ more rest, more ≠ [] ∧ taken = done ++ more ∧ cs = more ++ rest ∧
      judge taken rest.head? = .accept ∧
      ∀ p q, more = p ++ q → p ≠ [] → q ≠ [] →
        judge (done ++ p) (q ++ rest).head? = .undecided := by
  induction cs generalizing done with
  | nil => cases h
  | cons c cs ih =>
    rw [growChars] at h
    split at h
    · cases h
    · next haccept =>
      cases h
      refine ⟨[c], cs, List.cons_ne_nil _ _, rfl, rfl, haccept,
        fun p q hpq hp hq => ?_⟩
      obtain ⟨rfl, -⟩ | ⟨-, rfl⟩ := List.append_eq_singleton_iff.1 hpq.symm
      · exact absurd rfl hp
      · exact absurd rfl hq
    · next hfirst =>
      obtain ⟨more, rest, -, rfl, rfl, haccept, hbefore⟩ := ih h
      refine ⟨c :: more, rest, List.cons_ne_nil _ _, List.append_assoc _ _ _,
        rfl, haccept, ?_⟩
      intro p q hpq hp hq
      obtain ⟨rfl, -⟩ | ⟨p, rfl, rfl⟩ := List.cons_eq_append_iff.1 hpq
      · exact absurd rfl hp
      · by_cases hp' : p = []
        · subst hp'
          exact hfirst
        · have hlater := hbefore p q rfl hp' hq
          rwa [List.append_assoc] at hlater

/-- What is undecided until it is accepted is what grows. -/
theorem growChars_append {more rest : List Char} (hne : more ≠ [])
    (haccept : judge (done ++ more) rest.head? = .accept)
    (hbefore : ∀ p q, more = p ++ q → p ≠ [] → q ≠ [] →
      judge (done ++ p) (q ++ rest).head? = .undecided) :
    growChars judge done (more ++ rest) = some (done ++ more) := by
  induction more generalizing done with
  | nil => exact absurd rfl hne
  | cons c more ih =>
    rw [List.cons_append, growChars]
    by_cases hmore : more = []
    · subst hmore
      rw [List.nil_append, haccept]
    · have hassoc : ∀ p, done ++ [c] ++ p = done ++ c :: p :=
        fun p => List.append_assoc _ _ _
      rw [hbefore [c] more rfl (List.cons_ne_nil _ _) hmore]
      dsimp only
      rw [ih hmore (hassoc more ▸ haccept), hassoc]
      intro p q hpq hp hq
      rw [hassoc]
      exact hbefore (c :: p) q (congrArg (c :: ·) hpq) (List.cons_ne_nil _ _) hq

end Judge

/-! ## Growing as far as possible

Here all characters of a kind are looked at, and the best so far is kept. The
statement distinguishes whether anything acceptable has been found behind the
place where the growing began, since otherwise what was best before remains. -/

section Longest

variable {grows : Char → Bool} {accepts : List Char → Bool} {cs : List Char}

/-- A prefix of a list that has a first element is empty or begins with it. So
what is asked of all prefixes can be asked along the list. -/
theorem forall_isPrefix_cons_iff {c : Char} {P : List Char → Prop} :
    (∀ p, p <+: c :: cs → P p) ↔ P [] ∧ ∀ p, p <+: cs → P (c :: p) := by
  refine ⟨fun h => ⟨h [] List.nil_prefix,
    fun p hp => h _ (List.prefix_cons_inj c |>.2 hp)⟩, ?_⟩
  rintro ⟨hnil, hcons⟩ p hp
  obtain rfl | ⟨q, rfl, hq⟩ := List.prefix_cons_iff.1 hp
  · exact hnil
  · exact hcons q hq

/-- **Growing as far as possible** ends with the longest acceptable
continuation, and with what was best before only if there is none. -/
theorem growLongest_cases (grows : Char → Bool) (accepts : List Char → Bool)
    (done : List Char) (best : Option (List Char)) (cs : List Char) :
    (∃ more, more ≠ [] ∧ growLongest grows accepts done best cs
        = some (done ++ more) ∧
        more <+: cs.takeWhile grows ∧ accepts (done ++ more) = true ∧
        ∀ p, p <+: cs.takeWhile grows → accepts (done ++ p) = true →
          p.length ≤ more.length) ∨
      (growLongest grows accepts done best cs = best ∧
        ∀ p, p <+: cs.takeWhile grows → p ≠ [] →
          accepts (done ++ p) = false) := by
  have hnil : ∀ p : List Char, p <+: [] → p ≠ [] →
      accepts (done ++ p) = false := fun p hp hne =>
    absurd (List.prefix_nil.1 hp) hne
  induction cs generalizing done best with
  | nil => exact .inr ⟨rfl, hnil⟩
  | cons c cs ih =>
    cases hc : grows c with
    | false =>
      rw [growLongest, hc, if_neg Bool.false_ne_true,
        List.takeWhile_cons_of_neg (by simp [hc])]
      exact .inr ⟨rfl, hnil⟩
    | true =>
      have hassoc : ∀ p, done ++ [c] ++ p = done ++ c :: p :=
        fun p => List.append_assoc _ _ _
      rw [growLongest, if_pos hc, List.takeWhile_cons_of_pos hc]
      simp only [forall_isPrefix_cons_iff]
      obtain ⟨more, -, hgrow, hmore, haccepts, hlongest⟩ | ⟨hbest, hnone⟩ :=
        ih (done ++ [c]) (if accepts (done ++ [c]) then some (done ++ [c])
          else best) (fun p hp hne => absurd (List.prefix_nil.1 hp) hne)
      · rw [hassoc] at haccepts hgrow
        refine .inl ⟨c :: more, List.cons_ne_nil _ _, hgrow,
          List.prefix_cons_inj c |>.2 hmore, haccepts, fun _ => Nat.zero_le _,
          fun p hp h => ?_⟩
        exact Nat.succ_le_succ (hlongest p hp (hassoc p ▸ h))
      · simp only [hassoc] at hnone
        cases haccepts : accepts (done ++ [c]) with
        | true =>
          rw [if_pos haccepts] at hbest
          refine .inl ⟨[c], List.cons_ne_nil _ _, ?_,
            List.prefix_cons_inj c |>.2 List.nil_prefix, haccepts,
            fun _ => Nat.zero_le _, fun p hp h => ?_⟩
          · rw [if_pos rfl]
            exact hbest
          · by_cases hne : p = []
            · simp [hne]
            · rw [hnone p hp hne] at h
              cases h
        | false =>
          simp only [haccepts, Bool.false_eq_true, if_false] at hbest ⊢
          refine .inr ⟨hbest, fun h => absurd rfl h, fun p hp _ => ?_⟩
          by_cases hne : p = []
          · rw [hne]
            exact haccepts
          · exact hnone p hp hne

end Longest

/-! ## The three ways of taking a prefix

A literal is looked for in the order of its texts, and the first that fits is
taken, even if a later one is longer. The two other kinds are what has just
been described, begun with nothing. -/

namespace Scan

variable {cs taken : List Char}

/-- **The longest prefix** that a scan accepts is what it takes. -/
theorem take?_longest_eq_some_iff {grows : Char → Bool}
    {accepts : List Char → Bool} :
    (longest grows accepts).take? cs = some taken ↔
    (longest grows accepts).Takes cs taken := by
  have hcases := growLongest_cases grows accepts [] none cs
  simp only [List.nil_append] at hcases
  constructor
  · intro h
    obtain ⟨more, hne, hgrow, hp, haccepts, hlongest⟩ | ⟨hnone, -⟩ := hcases
    · cases h.symm.trans hgrow
      exact ⟨hne, hp, haccepts, hlongest⟩
    · cases h.symm.trans hnone
  · rintro ⟨hne, hp, haccepts, hlongest⟩
    obtain ⟨more, -, hgrow, hp', haccepts', hlongest'⟩ | ⟨-, hnone⟩ := hcases
    -- Of two longest prefixes of one run each is as long as the other.
    · have hlength :=
        Nat.le_antisymm (hlongest' _ hp haccepts) (hlongest _ hp' haccepts')
      rw [(List.prefix_of_prefix_length_le hp hp'
        (Nat.le_of_eq hlength)).eq_of_length hlength]
      exact hgrow
    · rw [hnone taken hp hne] at haccepts
      cases haccepts

/-- **A scan takes what there is to take.** -/
theorem take?_eq_some_iff (scan : Scan) :
    scan.take? cs = some taken ↔ scan.Takes cs taken := by
  cases scan with
  | literal texts =>
    refine List.find?_eq_some_iff_append.trans ⟨?_, ?_⟩
    · rintro ⟨hp, front, back, rfl, hfront⟩
      exact ⟨front, back, rfl, List.isPrefixOf_iff_prefix.1 hp, fun t ht h => by
        simpa [List.isPrefixOf_iff_prefix.2 h] using hfront t ht⟩
    · rintro ⟨front, back, rfl, hp, hfront⟩
      refine ⟨List.isPrefixOf_iff_prefix.2 hp, front, back, rfl, fun t ht => ?_⟩
      rw [Bool.not_eq_true', Bool.eq_false_iff]
      exact fun h => hfront t ht (List.isPrefixOf_iff_prefix.1 h)
  | sequence judge =>
    constructor
    · intro h
      obtain ⟨more, rest, hne, rfl, rfl, haccept, hbefore⟩ :=
        exists_of_growChars h
      exact ⟨hne, rest, rfl, haccept, hbefore⟩
    · rintro ⟨hne, rest, rfl, haccept, hbefore⟩
      exact growChars_append hne haccept hbefore
  | longest grows accepts => exact take?_longest_eq_some_iff

/-- A scan takes nothing if there is nothing to take. -/
theorem take?_eq_none_iff (scan : Scan) :
    scan.take? cs = none ↔ ∀ taken, ¬ scan.Takes cs taken := by
  simp only [← take?_eq_some_iff, Option.eq_none_iff_forall_ne_some, ne_eq]

end Scan

/-! ## The first scan to take anything

Among rules the order decides, not the length. That a rule takes something
says, of all rules in front of it, that they take nothing there. -/

section First

variable {α : Type} {rules : List (Scan × α)} {cs taken : List Char} {a : α}

/-- **The first scan to take anything** decides. -/
theorem firstPrefix_eq_some_iff :
    firstPrefix rules cs = some (a, taken) ↔ FirstTakes rules cs a taken := by
  rw [firstPrefix, List.findSome?_eq_some_iff]
  constructor
  · rintro ⟨front, ⟨scan, b⟩, back, rfl, hrule, hfront⟩
    obtain ⟨taken, htake, heq⟩ := Option.map_eq_some_iff.1 hrule
    cases heq
    exact ⟨front, scan, back, rfl, scan.take?_eq_some_iff.1 htake,
      fun rule hmem =>
      rule.1.take?_eq_none_iff.1 (Option.map_eq_none_iff.1 (hfront rule hmem))⟩
  · rintro ⟨front, scan, back, rfl, htakes, hfront⟩
    refine ⟨front, (scan, a), back, rfl, ?_, fun rule hmem => ?_⟩
    · exact Option.map_eq_some_iff.2
        ⟨taken, scan.take?_eq_some_iff.2 htakes, rfl⟩
    · exact Option.map_eq_none_iff.2
        (rule.1.take?_eq_none_iff.2 (hfront rule hmem))

/-- Nothing is taken if no scan takes anything. -/
theorem firstPrefix_eq_none_iff :
    firstPrefix rules cs = none ↔ ∀ rule ∈ rules, ∀ p, ¬ rule.1.Takes cs p := by
  simp only [firstPrefix, List.findSome?_eq_none_iff, Option.map_eq_none_iff,
    Scan.take?_eq_none_iff]

end First

end StreamScript.Pattern
