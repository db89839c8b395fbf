import StreamScript.Text.CaseTable

/-!
# Upper and lower case

Texts change case by the full mappings of Unicode: a character may turn into
several (`ß` into `SS`), and one mapping looks around itself. The Greek capital
sigma becomes the final form `ς` at the end of a word and `σ` elsewhere, where
a word ends if a cased character comes before and none comes after, passing
over characters that case ignores.
-/

namespace StreamScript.Text

/-- The characters of `c` in upper case. -/
def upperOf (c : Char) : List Char :=
  if c.toNat < 0x80 then [c.toUpper]
  else
    match upperExpansions.lookup c with
    | some image => image
    | none => [mapChar upperRuns c]

/-- The characters of `c` in lower case, wherever it stands. -/
def lowerOf (c : Char) : List Char :=
  if c.toNat < 0x80 then [c.toLower]
  else
    match lowerExpansions.lookup c with
    | some image => image
    | none => [mapChar lowerRuns c]

/-- Whether the first character that case does not ignore is cased. -/
def meetsCased (cs : List Char) : Bool :=
  match cs.dropWhile caseIgnorable.contains with
  | c :: _ => cased.contains c
  | [] => false

/-- **Upper case**, character by character. -/
def toUpper (cs : List Char) : List Char :=
  cs.flatMap upperOf

/-- The lower case of `c` between the characters `before`, kept in reverse, and
`after`. -/
def lowerBetween (before : List Char) (c : Char) (after : List Char) :
    List Char :=
  if c == 'Σ' then [if meetsCased before && !meetsCased after then 'ς' else 'σ']
  else lowerOf c

/-- Goes through a text from left to right; `done` is what has been written, and
`before` what has been read, both in reverse. -/
def lowerFrom (done before : List Char) : List Char → List Char
  | [] => done.reverse
  | c :: after =>
    lowerFrom ((lowerBetween before c after).reverse ++ done)
      (c :: before) after

/-- **Lower case**, with the sigma at the end of a word in its final form. -/
def toLower (cs : List Char) : List Char :=
  lowerFrom [] [] cs

end StreamScript.Text
