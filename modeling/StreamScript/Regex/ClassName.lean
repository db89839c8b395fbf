import StreamScript.Regex.AgeTable
import StreamScript.Regex.ExtensionTable
import StreamScript.Regex.TextBreak

/-!
# Classes with a name

Expressions name classes of characters in three ways: by a letter behind a
backslash (`\d`, `\s`, `\w`), by a word between colons inside brackets
(`[:alpha:]`), which stands for characters of ASCII only, and by a property
between braces (`\p{Greek}`, `\p{age=6.0}`). Names of the last kind are
compared without regard to case, blanks, hyphens and underscores, and a leading
`is` counts for nothing.

A name that stands alone is that of a property, of a category or of a script, in
this order. Three short names are those of properties that no expression can ask
for, and count as categories at once.
-/

namespace StreamScript.Regex

open Text (CharSet)
open Category Property

/-! ## Letters -/

/-- The decimal digits, `\d`. -/
def digits : CharSet := nd.set

/-- The characters of words, `\w`: letters, marks, decimal digits, connectors
and the two joiners. -/
def wordChars : CharSet :=
  .unionAll [alphabetic, categories (marks ++ [nd, pc]), joinControl]

/-! ## Words between colons -/

/-- The ASCII classes that can be named inside brackets. -/
def asciiRanges? : String → Option (List (Nat × Nat))
  | "alnum" => some [(0x30, 0x39), (0x41, 0x5A), (0x61, 0x7A)]
  | "alpha" => some [(0x41, 0x5A), (0x61, 0x7A)]
  | "ascii" => some [(0, 0x7F)]
  | "blank" => some [(0x09, 0x09), (0x20, 0x20)]
  | "cntrl" => some [(0, 0x1F), (0x7F, 0x7F)]
  | "digit" => some [(0x30, 0x39)]
  | "graph" => some [(0x21, 0x7E)]
  | "lower" => some [(0x61, 0x7A)]
  | "print" => some [(0x20, 0x7E)]
  | "punct" => some [(0x21, 0x2F), (0x3A, 0x40), (0x5B, 0x60), (0x7B, 0x7E)]
  | "space" => some [(0x09, 0x0D), (0x20, 0x20)]
  | "upper" => some [(0x41, 0x5A)]
  | "word" => some [(0x30, 0x39), (0x41, 0x5A), (0x5F, 0x5F), (0x61, 0x7A)]
  | "xdigit" => some [(0x30, 0x39), (0x41, 0x46), (0x61, 0x66)]
  | _ => none

/-- The set of an ASCII class. -/
def asciiClass? (name : String) : Option CharSet :=
  (asciiRanges? name).map .ofRanges

/-! ## Properties -/

/-- The characters that Unicode has had since an edition. -/
def age? (name : String) : Option CharSet :=
  (ageTable.findIdx? fun entry => entry.1.contains name).map fun i =>
    .unionAll ((ageTable.take (i + 1)).map (·.2))

/-- The characters that a script uses, whether they are its own or not. -/
def extendedScript? (name : String) : Option CharSet :=
  (scriptTable.find? fun entry => entry.1.contains name).map
    fun (names, script) =>
    match names.head?.bind fun name => extensionTable.lookup name with
    | some change => script.symm change
    | none => script

/-- The class of a name that stands alone: a property, a category or a
script. -/
def property? (name : String) : Option CharSet :=
  if name == "cf" || name == "sc" || name == "lc" then category? name
  else
    (findSet propertyTable name).or
      ((category? name).or (findSet scriptTable name))

/-- The class of a property with a value. -/
def propertyValue? (property value : String) : Option CharSet :=
  if ["gc", "generalcategory"].contains property then category? value
  else if ["sc", "script"].contains property then findSet scriptTable value
  else if ["scx", "scriptextensions"].contains property
    then extendedScript? value
  else if property == "age" then age? value
  else if ["gcb", "graphemeclusterbreak"].contains property
    then findSet graphemeBreaks value
  else if ["wb", "wordbreak"].contains property then findSet wordBreaks value
  else if ["sb", "sentencebreak"].contains property
    then findSet sentenceBreaks value
  else none

/-- A name as the tables write it: in lower case, without blanks, hyphens and
underscores, and without a leading `is`. -/
def plainName (name : List Char) : String :=
  let lower := name.map Char.toLower
  let bare := (if ['i', 's'].isPrefixOf lower then lower.drop 2
    else lower).filter fun c =>
    c.toNat < 0x80 && c != ' ' && c != '_' && c != '-'
  if ['i', 's'].isPrefixOf lower && bare == ['c'] then "isc"
      else String.ofList bare

end StreamScript.Regex
