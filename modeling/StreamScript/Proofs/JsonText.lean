import Mathlib.Data.Nat.Init
import StreamScript.Json.Printer
import StreamScript.Json.Reader

/-!
# JSON written and read back

What the printer writes in compact form the reader reads back
(`ofChars?_compact`), unless it nests deeper than the reader allows, in which
case the reader refuses it. Decimals are left out here: for them the printer
looks for the fewest digits.

A value is not told where its text ends. Strings and containers end with a
character of their own, and a number ends where something follows that no
number goes on with (`EndsNumber`): in a compact text a comma, a closing
bracket or nothing. Arrays and objects are both items with commas between and a
bracket behind, so what is read of either is one statement
(`bracketed_enclosed`).
-/

namespace StreamScript

/-! ## Members

A reader binds the members of an object one after the other. Where all names
are different this appends them, and so an object is read back with its members
in order. -/

namespace Bindings

variable {α : Type}

/-- A new name is bound at the end. -/
theorem set_of_not_mem {b : Bindings α} {name : String}
    (h : name ∉ b.map Prod.fst) (x : α) : set name x b = b ++ [(name, x)] := by
  induction b with
  | nil => rfl
  | cons m rest ih =>
    obtain ⟨n, y⟩ := m
    simp only [List.map_cons, List.mem_cons, not_or] at h
    rw [set, if_neg (Ne.symm h.1), ih h.2, List.cons_append]

/-- **Names that are all different** are bound as they stand. The members of an
object are read into a table of names, where a name that came twice would keep
its first place and take its last value. -/
theorem setAll_of_nodup {b more : Bindings α}
    (h : ((b ++ more).map Prod.fst).Nodup) : setAll b more = b ++ more := by
  induction more generalizing b with
  | nil => exact (List.append_nil b).symm
  | cons m rest ih =>
    obtain ⟨name, x⟩ := m
    have hnew : name ∉ b.map Prod.fst := fun hmem => by
      rw [List.map_append, List.nodup_append] at h
      exact h.2.2 name hmem name List.mem_cons_self rfl
    have hrest : b ++ [(name, x)] ++ rest = b ++ (name, x) :: rest := by simp
    show setAll (set name x b) rest = _
    rw [set_of_not_mem hnew, ih (by rwa [hrest]), hrest]

end Bindings

namespace Json

/-! ## Numbers

An integer is written as its digits, with a sign in front if it is negative.
The reader takes digits as long as there are any, then looks for a fraction and
for an exponent, and finds neither. That the digits are read as the integer is
a fact about digits; that they are taken as a whole depends on what follows
them. -/

/-- **What no number goes on with**: neither a digit nor a point, nor the
letter of an exponent. It holds of the end of the text, too. The reader of
numbers takes as long a text as it can, so what follows a number has to keep it
from going on. -/
def EndsNumber (rest : List Char) : Prop :=
  ∀ c ∈ rest.head?, Number.isDigit c = false ∧ c ≠ '.' ∧ c ≠ 'e' ∧ c ≠ 'E'

/-- A number may end with the text, or in front of what separates or closes. -/
theorem endsNumber_nil : EndsNumber [] := by
  rintro c ⟨⟩

theorem endsNumber_comma (rest : List Char) : EndsNumber (',' :: rest) := by
  rintro c ⟨⟩
  decide

theorem endsNumber_bracket (rest : List Char) : EndsNumber (']' :: rest) := by
  rintro c ⟨⟩
  decide

theorem endsNumber_brace (rest : List Char) : EndsNumber ('\x7d' :: rest) := by
  rintro c ⟨⟩
  decide

/-- The digits of a number are digits. -/
theorem isDigit_of_mem_digitsOf {n : Nat} {c : Char}
    (h : c ∈ Number.digitsOf n) :
    Number.isDigit c = true := by
  have hdigit := Nat.isDigit_of_mem_toDigits (by decide) (by decide) h
  simpa [Char.isDigit, Number.isDigit, Char.le_def] using hdigit

/-- The digits of a number are read as the number. -/
theorem natOfDigits_digitsOf (n : Nat) :
    Number.natOfDigits (Number.digitsOf n) = n :=
  Nat.ofDigitChars_ten_toDigits

/-- A number is written with at least one digit, and only zero begins with a
zero. -/
theorem exists_digitsOf (n : Nat) :
    ∃ d ds, Number.digitsOf n = d :: ds ∧ (d = '0' → n = 0) := by
  induction n using Nat.strong_induction_on with
  | _ n ih =>
    rw [Number.digitsOf, Nat.toDigits_eq_if (by decide)]
    split
    · exact ⟨_, _, rfl, Nat.digitChar_eq_zero.1⟩
    · next hbase =>
      obtain ⟨d, ds, hds, hzero⟩ := ih (n / 10) (by omega)
      refine ⟨d, ds ++ [Nat.digitChar (n % 10)], ?_, fun hd => ?_⟩
      · rw [show Nat.toDigits 10 (n / 10) = d :: ds from hds, List.cons_append]
      · have := hzero hd
        omega

/-- Digits are taken up to where they end. -/
theorem takeWhile_digitsOf (n : Nat) {rest : List Char} (h : EndsNumber rest) :
    (Number.digitsOf n ++ rest).takeWhile Number.isDigit = Number.digitsOf n ∧
      (Number.digitsOf n ++ rest).dropWhile Number.isDigit = rest := by
  have hall : ∀ c ∈ Number.digitsOf n, Number.isDigit c = true :=
    fun c => isDigit_of_mem_digitsOf
  rw [List.takeWhile_append_of_pos hall, List.dropWhile_append_of_pos hall]
  cases rest with
  | nil => simp
  | cons c rest =>
    have hc := (h c rfl).1
    rw [List.takeWhile_cons_of_neg (by simp [hc]),
      List.dropWhile_cons_of_neg (by simp [hc])]
    exact ⟨List.append_nil _, rfl⟩

/-- The digits of a whole number are read up to where the number ends. -/
theorem wholeDigits_digitsOf (n : Nat) {rest : List Char}
    (h : EndsNumber rest) :
    wholeDigits (Number.digitsOf n ++ rest)
    = some (Number.digitsOf n, rest) := by
  obtain ⟨d, ds, hds, hzero⟩ := exists_digitsOf n
  by_cases hd : d = '0'
  · obtain rfl := hzero hd
    cases rest with
    | nil => rfl
    | cons c rest => simp [wholeDigits, Number.digitsOf, (h c rfl).1]
  · obtain ⟨htake, hdrop⟩ := takeWhile_digitsOf n h
    rw [hds, List.cons_append] at *
    simp [wholeDigits, htake, hdrop, hd]

/-- Behind them there is neither a fraction, -/
theorem fractionDigits_of_ends {rest : List Char} (h : EndsNumber rest) :
    fractionDigits rest = some ([], rest) := by
  unfold fractionDigits
  split
  · exact absurd rfl (h _ rfl).2.1
  · rfl

/-- nor an exponent. -/
theorem exponentPart_of_ends {rest : List Char} (h : EndsNumber rest) :
    exponentPart rest = some (none, rest) := by
  cases rest with
  | nil => rfl
  | cons c rest =>
    obtain ⟨-, -, he, hE⟩ := h c rfl
    simp [exponentPart, he, hE]

/-- The value of a number without fraction and exponent is the integer itself,
as long as it is no greater than the greatest float. -/
theorem numberValue_digitsOf {n : Int} (hn : (Float.ofInt n).isFinite = true) :
    numberValue (decide (n < 0)) (Number.digitsOf n.natAbs) [] none
      = some (.integer n) := by
  have hsigned : Number.signed (decide (n < 0)) n.natAbs = n := by
    by_cases hlt : n < 0 <;>
      simp only [Number.signed, hlt, decide_true, decide_false, if_true,
        Bool.false_eq_true, if_false] <;> omega
  have hzero : (decide (n < 0) && n.natAbs == 0) = false := by
    rcases Int.lt_or_le n 0 with hlt | hlt
    · exact Bool.and_eq_false_imp.2 fun _ => beq_false_of_ne (by omega)
    · rw [decide_eq_false (Int.not_lt.2 hlt), Bool.false_and]
  simp only [numberValue, natOfDigits_digitsOf, hsigned, hzero, hn]
  rfl

/-- **A written integer is read back.** It must not be so large that it is
infinite as a float, since the reader refuses that. -/
theorem number_intText {n : Int} (hn : (Float.ofInt n).isFinite = true)
    {rest : List Char} (h : EndsNumber rest) :
    number (Number.intText n ++ rest) = some (.integer n, rest) := by
  have hvalue := numberValue_digitsOf hn
  have hwhole := wholeDigits_digitsOf n.natAbs h
  unfold Number.intText
  by_cases hlt : n < 0
  · rw [decide_eq_true hlt] at hvalue
    simp [number, hlt, hwhole, fractionDigits_of_ends h,
      exponentPart_of_ends h, hvalue]
  · obtain ⟨d, ds, hds, -⟩ := exists_digitsOf n.natAbs
    have hd : d ≠ '-' := by
      rintro rfl
      exact absurd (isDigit_of_mem_digitsOf (hds ▸ List.mem_cons_self))
        (by decide)
    rw [decide_eq_false hlt] at hvalue
    rw [hds] at hvalue hwhole
    rw [List.cons_append] at hwhole
    simp [number, hlt, hds, hd, hwhole, fractionDigits_of_ends h,
      exponentPart_of_ends h, hvalue]

/-! ## Strings

A string is written character by character, and each is read back as what it
was, whether it is escaped by a letter, by four hexadecimal digits, or not at
all. What has been read is carried along in reverse. -/

/-- A digit that has been written is read as the same digit. -/
theorem hexDigit?_lastHexDigit (n : Nat) :
    Text.hexDigit? (lastHexDigit n) = some (n % 16) := by
  have hall : ∀ d < 16, Text.hexDigit? (lastHexDigit d) = some d := by decide
  have hmod : lastHexDigit n = lastHexDigit (n % 16) := by
    unfold lastHexDigit
    rw [Nat.mod_mod]
  rw [hmod]
  exact hall _ (Nat.mod_lt _ (by decide))

/-- Behind a backslash stands what it escapes. -/
theorem stringBody_backslash {c : Char} {cs rest : List Char}
    (h : escaped (cs ++ rest) = some (c, rest)) (done : List Char) :
    stringBody done ('\\' :: cs ++ rest) = stringBody (c :: done) rest := by
  rw [List.cons_append, stringBody, if_neg (by decide), if_pos rfl]
  split
  · next heq =>
    rw [h] at heq
    cases heq
    rfl
  · next heq =>
    rw [h] at heq
    cases heq

/-- **An escaped character is read back.** Seven characters have an escape of
their own, other control characters are written by their number, and every
other character stands for itself. -/
theorem stringBody_escape (c : Char) (done rest : List Char) :
    stringBody done (escape c ++ rest) = stringBody (c :: done) rest := by
  unfold escape
  -- the seven characters that have an escape of their own
  iterate 7
    split
    · next h =>
      subst h
      exact stringBody_backslash rfl done
  split
  · have hfour :
        fourHex '0' '0' (lastHexDigit (c.toNat / 16)) (lastHexDigit c.toNat)
        = some c.toNat := by
      have hzero : Text.hexDigit? '0' = some 0 := by decide
      simp only [fourHex, hexDigit?_lastHexDigit, hzero, Option.some.injEq]
      omega
    refine stringBody_backslash ?_ done
    simp only [List.cons_append, List.nil_append, escaped, hfour]
    rw [if_neg (by omega), if_neg (by omega), Char.ofNat_toNat]
  · next hquote hbackslash _ _ _ _ _ hcontrol =>
    rw [List.cons_append, List.nil_append, stringBody, if_neg hquote,
      if_neg hbackslash, if_neg hcontrol]

/-- **A written string is read back.** The induction carries what has been read
along, in reverse, as the reader does. -/
theorem stringBody_flatMap_escape (cs done rest : List Char) :
    stringBody done (cs.flatMap escape ++ '"' :: rest) =
      some (String.ofList (done.reverse ++ cs), rest) := by
  induction cs generalizing done with
  | nil =>
    rw [List.flatMap_nil, List.nil_append, stringBody, if_pos rfl,
      List.append_nil]
  | cons c cs ih =>
    rw [List.flatMap_cons, List.append_assoc, stringBody_escape, ih]
    simp

/-- **A text is read as it was written**, character by character, whatever
follows the closing quote. What follows does not matter here, since a string
ends with its quote and not with the text. -/
theorem stringText_quoted (s : String) (rest : List Char) :
    stringText (quoted s ++ rest) = some (s, rest) := by
  have htext :
      quoted s ++ rest = '"' :: (s.toList.flatMap escape ++ '"' :: rest) := by
    simp [quoted]
  rw [htext, stringText, stringBody_flatMap_escape]
  simp

/-! ## Items between commas

The items of an array and the members of an object differ in how an item is
written and in the bracket at the end. Both are left open here. An item that
nests too deep is refused, and with it the whole, so what is read is stated as
a choice: all items if all of them fit, and nothing otherwise.

The readers stop after so many items at most, to be seen to end. The bound is
never reached, since every item has at least one character. -/

section Items

variable {α : Type} {item : Reader α} {text : α → List Char} {close : Char}

/-- The items after the first and the bracket behind them, each item behind a
comma. -/
def separated (text : α → List Char) (close : Char) : List α → List Char
  | [] => [close]
  | x :: xs => ',' :: text x ++ separated text close xs

/-- A bracket that closes a container. -/
structure Closes (close : Char) : Prop where
  ne_comma : close ≠ ','
  gap : isGap close = false
  ends : ∀ rest, EndsNumber (close :: rest)

theorem closes_bracket : Closes ']' :=
  ⟨by decide, by decide, endsNumber_bracket⟩

theorem closes_brace : Closes '\x7d' := ⟨by decide, by decide, endsNumber_brace⟩

/-- No number goes on with what stands behind an item. -/
theorem Closes.endsNumber_separated (h : Closes close) (xs : List α)
    (rest : List Char) :
    EndsNumber (separated text close xs ++ rest) := by
  cases xs with
  | nil => exact h.ends rest
  | cons x xs => exact endsNumber_comma _

/-- A text that begins with no blank. -/
theorem skipGap_cons {c : Char} (h : isGap c = false) (rest : List Char) :
    skipGap (c :: rest) = c :: rest := by
  rw [skipGap, List.dropWhile_cons_of_neg (by simp [h])]

/-- **A reader reads a text back** if it nests no deeper than allowed, and
refuses it otherwise. What follows the text stays. The limit is part of the
statement, so that the one induction proves both what is read and what is
refused. -/
def ReadsBack (item : Reader α) (text : α → List Char) (fits : Prop)
    [Decidable fits] (x : α) :
    Prop :=
  ∀ rest, EndsNumber rest → item (text x ++ rest) = if fits then some (x, rest)
    else none

/-- **Items between commas are read back** if each of them is. The induction is
on the items behind the first, with what has been read before them. The reader
counts the items that it may still read. There are never more of them than
characters, so a count that is as large as the text is long does not stop it.
-/
theorem elements_separated {fits : α → Prop} [DecidablePred fits]
    (hclose : Closes close) {x : α} {xs : List α}
    (h : ∀ y ∈ x :: xs, ReadsBack item text (fits y) y) {most : Nat}
    (hmost : xs.length < most) (done : List α) (rest : List Char) :
    elements item close most done (text x ++ (separated text close xs ++ rest))
      = if ∀ y ∈ x :: xs, fits y then some (done.reverse ++ x :: xs, rest)
      else none := by
  induction xs generalizing x most done with
  | nil =>
    obtain ⟨more, rfl⟩ := Nat.exists_eq_add_of_lt hmost
    rw [elements,
      h x List.mem_cons_self _ (hclose.endsNumber_separated [] rest)]
    by_cases hx : fits x
    · rw [if_pos hx, if_pos (by simpa using hx)]
      simp only [separated, List.cons_append, List.nil_append,
        skipGap_cons hclose.gap, if_true]
      simp
    · rw [if_neg hx, if_neg (by simpa using hx)]
  | cons y ys ih =>
    obtain ⟨more, rfl⟩ := Nat.exists_eq_add_of_lt hmost
    rw [elements,
      h x List.mem_cons_self _ (hclose.endsNumber_separated (y :: ys) rest)]
    by_cases hx : fits x
    · have hrest := ih (fun z hz => h z (List.mem_cons_of_mem _ hz))
        (show ys.length < (y :: ys).length + more by simp; omega) (x :: done)
      rw [if_pos hx]
      simp only [separated, List.cons_append, List.append_assoc,
        skipGap_cons (c := ',') rfl, if_neg hclose.ne_comma.symm,
        if_true, hrest]
      simp [hx]
    · rw [if_neg hx, if_neg fun hall => hx (hall x List.mem_cons_self)]

/-- What stands behind the bracket that opens a container. -/
def enclosed (text : α → List Char) (close : Char) : List α → List Char
  | [] => [close]
  | x :: xs => text x ++ separated text close xs

/-- There are fewer items than characters. -/
theorem length_le_separated (xs : List α) :
    xs.length < (separated text close xs).length := by
  induction xs with
  | nil => exact Nat.zero_lt_one
  | cons x xs ih =>
    simp only [separated, List.length_cons, List.length_append]
    omega

/-- A list in brackets has more characters than elements, so the steps of
reading it are enough. -/
theorem length_le_enclosed (xs : List α) :
    xs.length ≤ (enclosed text close xs).length := by
  cases xs with
  | nil => exact Nat.zero_le _
  | cons x xs =>
    have : xs.length < (separated text close xs).length :=
      length_le_separated xs
    simp only [enclosed, List.length_cons, List.length_append]
    omega

/-- The text of an item is part of the text of the items. -/
theorem length_text_le_separated {x : α} {xs : List α} (h : x ∈ xs) :
    (text x).length ≤ (separated text close xs).length := by
  induction xs with
  | nil => cases h
  | cons y ys ih =>
    simp only [separated, List.length_cons, List.length_append]
    obtain rfl | h := List.mem_cons.1 h
    · omega
    · have := ih h
      omega

theorem length_text_le_enclosed {x : α} {xs : List α} (h : x ∈ xs) :
    (text x).length ≤ (enclosed text close xs).length := by
  cases xs with
  | nil => cases h
  | cons y ys =>
    rw [enclosed, List.length_append]
    obtain rfl | h := List.mem_cons.1 h
    · omega
    · have : (text x).length ≤ (separated text close ys).length :=
        length_text_le_separated h
      omega

/-- **Items between two brackets are read back** if each of them is. Nothing
between the brackets is a case of its own, as no comma tells of an item there.
That is what `hhead` is for: the first item must not look like the closing
bracket. -/
theorem bracketed_enclosed {fits : α → Prop} [DecidablePred fits]
    (hclose : Closes close) {xs : List α}
    (h : ∀ x ∈ xs, ReadsBack item text (fits x) x) (hhead : ∀ x ∈ xs, ∃ c cs,
      text x = c :: cs ∧ isGap c = false ∧ c ≠ close)
    {most : Nat} (hmost : xs.length ≤ most) (rest : List Char) :
    bracketed item close most (enclosed text close xs ++ rest) =
      if ∀ x ∈ xs, fits x then some (xs, rest) else none := by
  cases xs with
  | nil =>
    show bracketed item close most (close :: rest) = _
    rw [bracketed, skipGap_cons hclose.gap]
    simp
  | cons x xs =>
    obtain ⟨c, cs, hcs, hgap, hc⟩ := hhead x List.mem_cons_self
    have hitems := elements_separated hclose h hmost [] rest
    rw [enclosed, List.append_assoc]
    rw [hcs, List.cons_append] at hitems ⊢
    rw [bracketed, skipGap_cons hgap]
    simp only [if_neg hc]
    exact hitems

end Items

/-! ## Values

Levels are counted downwards: a container is read with one level less inside,
and refused where no level is left. A value nests as deep as its containers do,
so it is read back exactly if there are as many levels. -/

mutual

/-- **How deep the containers of a value nest.** A value without containers has
none, and a container with nothing in it one level. -/
def nesting : Json → Nat
  | .array items => nestingOfItems items + 1
  | .object members => nestingOfMembers members + 1
  | _ => 0

/-- The deepest nesting among the items of an array. -/
def nestingOfItems : List Json → Nat
  | [] => 0
  | j :: js => max j.nesting (nestingOfItems js)

/-- The deepest nesting among the members of an object. -/
def nestingOfMembers : List (String × Json) → Nat
  | [] => 0
  | (_, j) :: rest => max j.nesting (nestingOfMembers rest)

end

/-- An array is nested as deep as its deepest element. -/
theorem nestingOfItems_le_iff {items : List Json} {n : Nat} :
    nestingOfItems items ≤ n ↔ ∀ j ∈ items, j.nesting ≤ n := by
  induction items with
  | nil => simp [nestingOfItems]
  | cons j js ih => rw [nestingOfItems, Nat.max_le, ih, List.forall_mem_cons]

theorem nestingOfMembers_le_iff {members : List (String × Json)} {n : Nat} :
    nestingOfMembers members ≤ n ↔ ∀ m ∈ members, m.2.nesting ≤ n := by
  induction members with
  | nil => simp [nestingOfMembers]
  | cons m rest ih =>
    obtain ⟨name, j⟩ := m
    rw [nestingOfMembers, Nat.max_le, ih, List.forall_mem_cons]

/-- **A value that its compact text shows exactly**: without decimals, and with
the members of an object under names of their own. Any other value has a text,
too, but reading that may give another value: decimals are rounded, and of
several members of one name one is left. -/
inductive Exact : Json → Prop
  | null : Exact .null
  | bool (b : Bool) : Exact (.bool b)
  | integer {n : Int} (finite : (Float.ofInt n).isFinite = true) :
      Exact (.integer n)
  | string (s : String) : Exact (.string s)
  | array {items : List Json} (each : ∀ j ∈ items, Exact j) :
      Exact (.array items)
  | object {members : List (String × Json)}
      (distinct : (members.map Prod.fst).Nodup)
      (each : ∀ m ∈ members, Exact m.2) : Exact (.object members)

/-- The text of a member. -/
def memberText (m : String × Json) : List Char :=
  quoted m.1 ++ ':' :: compact m.2

/-- The text of an array. -/
theorem compact_array (items : List Json) :
    compact (.array items) = '[' :: enclosed compact ']' items := by
  have hrest : ∀ items, compactRest items = separated compact ']' items := by
    intro items
    induction items with
    | nil => rfl
    | cons j js ih => rw [compactRest, separated, ih]
  cases items with
  | nil => rfl
  | cons j js => rw [compact, hrest, List.cons_append, enclosed]

/-- The text of an object. -/
theorem compact_object (members : List (String × Json)) :
    compact (.object members) = '\x7b' :: enclosed memberText '\x7d'
      members := by
  have hrest : ∀ members,
      compactMembers members = separated memberText '\x7d' members := by
    intro members
    induction members with
    | nil => rfl
    | cons m rest ih =>
      obtain ⟨name, j⟩ := m
      simp [compactMembers, separated, memberText, ih]
  cases members with
  | nil => rfl
  | cons m rest =>
    obtain ⟨name, j⟩ := m
    simp [compact, hrest, enclosed, memberText]

/-- A written number begins like one. -/
theorem exists_intText (n : Int) :
    ∃ c cs, Number.intText n = c :: cs ∧
      (c = '-' ∨ Number.isDigit c = true) := by
  unfold Number.intText
  split
  · exact ⟨_, _, rfl, .inl rfl⟩
  · obtain ⟨d, ds, hds, -⟩ := exists_digitsOf n.natAbs
    exact ⟨d, ds, hds,
      .inr (isDigit_of_mem_digitsOf (hds ▸ List.mem_cons_self))⟩

/-- What begins like a number is no blank. -/
theorem isGap_of_number {c : Char} (h : c = '-' ∨ Number.isDigit c = true) :
    isGap c = false := by
  cases hgap : isGap c with
  | false => rfl
  | true =>
    simp only [isGap, Bool.or_eq_true, beq_iff_eq] at hgap
    obtain ((rfl | rfl) | rfl) | rfl := hgap <;> exact absurd h (by decide)

/-- The text of a value begins with no blank and no bracket that closes. So the
reader of items does not take the first one for the end of its container. -/
theorem exists_compact {j : Json} (h : Exact j) :
    ∃ c cs, compact j = c :: cs ∧ isGap c = false ∧ c ≠ ']' := by
  cases h with
  | null => exact ⟨_, _, rfl, by decide, by decide⟩
  | bool b => cases b <;> exact ⟨_, _, rfl, by decide, by decide⟩
  | @integer n _ =>
    obtain ⟨c, cs, hcs, hc⟩ := exists_intText n
    refine ⟨c, cs, hcs, isGap_of_number hc, ?_⟩
    rintro rfl
    revert hc
    decide
  | string s => exact ⟨_, _, rfl, by decide, by decide⟩
  | @array items _ => cases items <;> exact ⟨_, _, rfl, by decide, by decide⟩
  | @object members _ _ =>
    rcases members with _ | ⟨⟨name, j⟩, rest⟩ <;>
        exact ⟨_, _, rfl, by decide, by decide⟩

variable {most levels : Nat}

/-- What begins like a number is read as one. -/
theorem value_of_number {c : Char} (h : c = '-' ∨ Number.isDigit c = true)
    (cs : List Char) :
    value most levels (c :: cs) = number (c :: cs) := by
  unfold value
  rw [skipGap_cons (isGap_of_number h)]
  split
  case h_7 => rfl
  all_goals
    next heq =>
    obtain ⟨rfl, -⟩ := List.cons.inj heq
    exact absurd h (by decide)

/-- A member is a name and a value, with a colon between them. -/
theorem member_readsBack {j : Json} {name : String}
    (h : ReadsBack (value most levels) compact (j.nesting ≤ levels) j) :
    ReadsBack (member (value most levels)) memberText (j.nesting ≤ levels)
    (name, j) := by
  intro rest hrest
  have htext : memberText (name, j) ++ rest
      = quoted name ++ (':' :: (compact j ++ rest)) := by
    simp [memberText]
  have hgap : skipGap (quoted name ++ (':' :: (compact j ++ rest))) =
      quoted name ++ (':' :: (compact j ++ rest)) := skipGap_cons (by decide) _
  rw [htext, member, hgap, stringText_quoted]
  simp only [skipGap_cons (c := ':') rfl, h rest hrest]
  split <;> rfl

/-- An array is read back where its items are, one level further inside. -/
theorem array_readsBack {items : List Json}
    (h : ∀ j ∈ items, ∀ levels,
      ReadsBack (value most levels) compact (j.nesting ≤ levels) j)
    (hhead : ∀ j ∈ items, ∃ c cs, compact j = c :: cs ∧ isGap c = false ∧
      c ≠ ']')
    (hmost : items.length ≤ most) (levels : Nat) :
    ReadsBack (value most levels) compact (nesting (.array items) ≤ levels)
    (.array items) := by
  intro rest _
  rw [compact_array, List.cons_append, value.eq_def, skipGap_cons (by decide),
    nesting]
  cases levels with
  | zero => rfl
  | succ levels =>
    simp only [bracketed_enclosed closes_bracket (fun j hj => h j hj levels)
      hhead hmost, Nat.add_le_add_iff_right, nestingOfItems_le_iff]
    split <;> rfl

/-- An object is read back where its members are, one level further inside. -/
theorem object_readsBack {members : List (String × Json)}
    (h : ∀ m ∈ members, ∀ levels,
      ReadsBack (value most levels) compact (m.2.nesting ≤ levels) m.2)
    (distinct : (members.map Prod.fst).Nodup) (hmost : members.length ≤ most)
    (levels : Nat) :
    ReadsBack (value most levels) compact (nesting (.object members) ≤ levels)
      (.object members) := by
  intro rest _
  rw [compact_object, List.cons_append, value.eq_def, skipGap_cons (by decide),
    nesting]
  cases levels with
  | zero => rfl
  | succ levels =>
    have hhead : ∀ m ∈ members, ∃ c cs, memberText m = c :: cs ∧
        isGap c = false ∧ c ≠ '\x7d' :=
      fun m _ => ⟨_, _, rfl, by decide, by decide⟩
    simp only [bracketed_enclosed closes_brace
      (fun m hm => member_readsBack (h m hm levels)) hhead hmost,
      Nat.add_le_add_iff_right, nestingOfMembers_le_iff]
    split
    · rw [Option.map_some, Bindings.setAll_of_nodup distinct]
      rfl
    · rfl

/-- **A written value is read back** where as many levels are allowed. The
induction is on the value, with the levels generalized. Inside a container one
level less is allowed, which is why no fixed number of them would do. -/
theorem value_readsBack {j : Json} (h : Exact j)
    (hmost : (compact j).length ≤ most) (levels : Nat) :
    ReadsBack (value most levels) compact (j.nesting ≤ levels) j := by
  induction h generalizing levels with
  | null =>
    intro rest _
    rw [value.eq_def]
    rfl
  | bool b =>
    intro rest _
    rw [value.eq_def]
    cases b <;> rfl
  | @integer n finite =>
    intro rest hrest
    obtain ⟨c, cs, hcs, hc⟩ := exists_intText n
    have hread := number_intText finite hrest
    rw [hcs, List.cons_append] at hread
    rw [compact, hcs, List.cons_append, value_of_number hc, hread]
    rfl
  | string s =>
    intro rest hrest
    have hread : stringBody [] (s.toList.flatMap escape ++ '"' :: rest)
        = some (s, rest) := by
      rw [stringBody_flatMap_escape]
      simp
    have htext : compact (.string s) ++ rest
        = '"' :: (s.toList.flatMap escape ++ '"' :: rest) := by
      simp [compact, quoted]
    rw [htext, value.eq_def, skipGap_cons (by decide)]
    simp [hread, nesting]
  | @array items each ih =>
    rw [compact_array, List.length_cons] at hmost
    have hlength : items.length ≤ (enclosed compact ']' items).length :=
      length_le_enclosed items
    refine array_readsBack (fun j hj => ih j hj ?_)
      (fun j hj => exists_compact (each j hj)) (by omega) levels
    have : (compact j).length ≤ (enclosed compact ']' items).length :=
      length_text_le_enclosed hj
    omega
  | @object members distinct _ ih =>
    rw [compact_object, List.length_cons] at hmost
    have hlength :
        members.length ≤ (enclosed memberText '\x7d' members).length :=
      length_le_enclosed members
    refine object_readsBack (fun m hm => ih m hm ?_) distinct (by omega) levels
    have :
        (memberText m).length ≤ (enclosed memberText '\x7d' members).length :=
      length_text_le_enclosed hm
    simp only [memberText, List.length_append, List.length_cons] at this
    omega

/-- **What is written is read back**, unless it nests too deep. The reader
takes the whole text, so there is nothing behind it that could be wrong. -/
theorem ofChars?_compact {j : Json} (h : Exact j) :
    ofChars? (compact j) = if j.nesting ≤ nestingLimit then some j
      else none := by
  have hread := value_readsBack h (Nat.le_refl _) nestingLimit [] endsNumber_nil
  rw [List.append_nil] at hread
  rw [ofChars?, hread]
  by_cases hdeep : j.nesting ≤ nestingLimit
  · rw [if_pos hdeep, if_pos hdeep]
    rfl
  · rw [if_neg hdeep, if_neg hdeep]

end Json

end StreamScript
