import StreamScript.Pattern.Bracket

/-!
# Scanning characters

What a rule table is to tokens, a list of scans is to characters: each scan
takes a prefix of a text or none, and the first one to take a prefix wins. Three
ways of taking a prefix suffice for the lexer – one of several fixed texts, a
prefix that grows until a judge decides, and the longest prefix with a property.
-/

namespace StreamScript.Pattern

/-- **A way of taking a prefix** of a text. -/
inductive Scan where
  /-- One of these texts, the earlier ones first. -/
  | literal (texts : List (List Char))
  /-- Grows by one character at a time until the judge, who sees the prefix and
  the character after it, decides. -/
  | sequence (judge : List Char → Option Char → Verdict)
  /-- The longest prefix with the property `accepts`, while `grows` allows
  another character. -/
  | longest (grows : Char → Bool) (accepts : List Char → Bool)

/-- Lets the prefix `taken` grow until the judge decides. -/
def growChars (judge : List Char → Option Char → Verdict) (taken : List Char) :
    List Char → Option (List Char)
  | [] => none
  | c :: cs =>
    match judge (taken ++ [c]) cs.head? with
    | .reject => none
    | .accept => some (taken ++ [c])
    | .undecided => growChars judge (taken ++ [c]) cs

/-- The longest acceptable prefix that continues `taken`, `best` being the
longest so far. -/
def growLongest (grows : Char → Bool) (accepts : List Char → Bool)
    (taken : List Char) (best : Option (List Char)) : List Char →
    Option (List Char)
  | [] => best
  | c :: cs =>
    if grows c then
      let taken := taken ++ [c]
      growLongest grows accepts taken
        (if accepts taken then some taken else best) cs
    else best

/-- **The prefix that a scan takes.** -/
def Scan.take? : Scan → List Char → Option (List Char)
  | .literal texts, cs => texts.find? fun text => text.isPrefixOf cs
  | .sequence judge, cs => growChars judge [] cs
  | .longest grows accepts, cs => growLongest grows accepts [] none cs

/-- Whether a scan always takes at least one character. -/
def Scan.Proper : Scan → Prop
  | .literal texts => ∀ text ∈ texts, text ≠ []
  | _ => True

/-- The first scan to take a prefix, with that prefix. -/
def firstPrefix {α : Type} (rules : List (Scan × α)) (cs : List Char) :
    Option (α × List Char) :=
  rules.findSome? fun (scan, a) => (scan.take? cs).map fun taken => (a, taken)

theorem prefix_of_growChars {judge : List Char → Option Char → Verdict}
    {taken cs p : List Char} (h : growChars judge taken cs = some p) :
    p ≠ [] ∧ p <+: taken ++ cs := by
  induction cs generalizing taken with
  | nil => simp [growChars] at h
  | cons c cs ih =>
    simp only [growChars] at h
    split at h
    · simp at h
    · simp only [Option.some.injEq] at h
      subst h
      exact ⟨by simp, cs, by simp⟩
    · simpa using ih h

theorem prefix_of_growLongest {grows : Char → Bool} {accepts : List Char → Bool}
    {taken cs p : List Char} {best : Option (List Char)}
    (hb : ∀ b, best = some b → b ≠ [] ∧ b <+: taken ++ cs)
    (h : growLongest grows accepts taken best cs = some p) :
    p ≠ [] ∧ p <+: taken ++ cs := by
  induction cs generalizing taken best with
  | nil => exact hb p h
  | cons c cs ih =>
    simp only [growLongest] at h
    split at h
    · have hnext :
          ∀ b, (if accepts (taken ++ [c]) then some (taken ++ [c]) else best)
            = some b → b ≠ [] ∧ b <+: taken ++ [c] ++ cs := by
        intro b hbest
        split at hbest
        · simp only [Option.some.injEq] at hbest
          subst hbest
          exact ⟨by simp, cs, by simp⟩
        · simpa using hb b hbest
      simpa using ih hnext h
    · exact hb p h

/-- **A scan takes a prefix**, and a proper one takes some of the text. -/
theorem Scan.prefix_of_take? {scan : Scan} (hs : scan.Proper) {cs p : List Char}
    (h : scan.take? cs = some p) : p ≠ [] ∧ p <+: cs := by
  cases scan with
  | literal texts =>
    refine ⟨hs p (List.mem_of_find?_eq_some h), ?_⟩
    simpa using List.find?_some h
  | sequence judge => simpa using prefix_of_growChars h
  | longest grows accepts =>
    have hnone : ∀ b, (none : Option (List Char)) = some b → b ≠ [] ∧
        b <+: [] ++ cs := by simp
    simpa using prefix_of_growLongest hnone h

/-- The first scan to take a prefix takes one. -/
theorem prefix_of_firstPrefix {α : Type} {rules : List (Scan × α)}
    (hr : ∀ rule ∈ rules, rule.1.Proper) {cs p : List Char} {a : α}
    (h : firstPrefix rules cs = some (a, p)) : p ≠ [] ∧ p <+: cs := by
  obtain ⟨⟨scan, b⟩, hmem, hb⟩ := List.exists_of_findSome?_eq_some h
  obtain ⟨q, hq, he⟩ := Option.map_eq_some_iff.1 hb
  simp only [Prod.mk.injEq] at he
  obtain ⟨rfl, rfl⟩ := he
  exact Scan.prefix_of_take? (hr _ hmem) hq

end StreamScript.Pattern
