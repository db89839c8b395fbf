/-!
# Blank characters

Indentation, the gaps between tokens and the trimming functions all turn on
one class of characters: those with the Unicode property `White_Space`. The
class has twenty-five members and is closed, so it is written out.

Configuration files are read more narrowly. There a word ends only at one of
the five ASCII blanks, and `isAsciiBlank` is that class; every member of it is
blank (`isBlank_of_isAsciiBlank`).

Texts are handled here as lists of characters, which is the form the lexer
recurses on. `trimStart` and `trimEnd` are the two halves of `trim`, and the
lemmas say what they remove: a run of blanks and nothing else.
-/

namespace StreamScript.Text

/-- **Blank characters**: the Unicode property `White_Space`. -/
def isBlank (c : Char) : Bool :=
  let n := c.toNat
  (0x09 ≤ n && n ≤ 0x0D) || n == 0x20 || n == 0x85 || n == 0xA0 || n == 0x1680
    || (0x2000 ≤ n && n ≤ 0x200A) || n == 0x2028 || n == 0x2029 || n == 0x202F
    || n == 0x205F || n == 0x3000

/-- The ASCII blanks that separate words in a configuration file: space, tab,
line feed, form feed and carriage return, but not the vertical tab. -/
def isAsciiBlank (c : Char) : Bool :=
  c == ' ' || c == '\t' || c == '\n' || c == '\x0c' || c == '\r'

/-- The narrow class lies inside the wide one. -/
theorem isBlank_of_isAsciiBlank {c : Char} (h : isAsciiBlank c = true) :
    isBlank c = true := by
  simp only [isAsciiBlank, Bool.or_eq_true, beq_iff_eq] at h
  rcases h with (((h | h) | h) | h) | h <;> subst h <;> decide

/-- The leading run of blanks. -/
def indent (cs : List Char) : List Char :=
  cs.takeWhile isBlank

/-- What follows the leading run of blanks. -/
def trimStart (cs : List Char) : List Char :=
  cs.dropWhile isBlank

/-- The text without the run of blanks at its end. -/
def trimEnd (cs : List Char) : List Char :=
  (cs.reverse.dropWhile isBlank).reverse

/-- The text without the runs of blanks at both ends. -/
def trim (cs : List Char) : List Char :=
  trimEnd (trimStart cs)

/-- The leading run and what follows it are the whole text. -/
theorem indent_append_trimStart (cs : List Char) :
    indent cs ++ trimStart cs = cs :=
  List.takeWhile_append_dropWhile

end StreamScript.Text
