import StreamScript.Regex.CategoryTable
import StreamScript.Regex.ScriptTable

/-!
# General categories by name

A name in an expression stands for one general category, or for all those of a
kind: letters, marks, numbers and so on. Three more names are used like
categories, for all characters, those of ASCII, and those that are assigned.
-/

namespace StreamScript.Regex

open Text (CharSet)

/-- The characters that are in no listed category. -/
def unassigned : CharSet :=
  (CharSet.unionAll (categoryTable.map (·.2))).compl

/-- **The characters of a category.** -/
def Category.set (c : Category) : CharSet :=
  (categoryTable.lookup c).getD unassigned

/-- The characters of several categories. -/
def categories (cs : List Category) : CharSet :=
  .unionAll (cs.map Category.set)

namespace Category

/-- The letters with a case. -/
def casedLetters : List Category := [lu, ll, lt]

/-- The letters. -/
def letters : List Category := casedLetters ++ [lm, lo]

/-- The marks. -/
def marks : List Category := [mn, mc, me]

/-- The numbers. -/
def numbers : List Category := [nd, nl, no]

/-- The punctuation. -/
def punctuation : List Category := [pc, pd, ps, pe, pi, pf, po]

/-- The symbols. -/
def symbols : List Category := [sm, sc, sk, so]

/-- The separators. -/
def separators : List Category := [zs, zl, zp]

/-- What is none of these. -/
def others : List Category := [cc, cf, co, cn]

end Category

/-- The set of a name in a table. -/
def findSet (table : List NamedSet) (name : String) : Option CharSet :=
  (table.find? fun entry => entry.1.contains name).map (·.2)

open Category in
/-- The names of categories, and what they stand for. -/
def categoryNames : List (List String × List Category) :=
  [(["lc", "casedletter"], casedLetters), (["l", "letter"], letters),
   (["m", "mark", "combiningmark"], marks), (["n", "number"], numbers),
   (["p", "punctuation", "punct"], punctuation), (["s", "symbol"], symbols),
   (["z", "separator"], separators), (["c", "other"], others),
   (["lu", "uppercaseletter"], [lu]), (["ll", "lowercaseletter"], [ll]),
   (["lt", "titlecaseletter"], [lt]), (["lm", "modifierletter"], [lm]),
   (["lo", "otherletter"], [lo]), (["mn", "nonspacingmark"], [mn]),
   (["mc", "spacingmark"], [mc]), (["me", "enclosingmark"], [me]),
   (["nd", "decimalnumber", "digit"], [nd]), (["nl", "letternumber"], [nl]),
   (["no", "othernumber"], [no]), (["pc", "connectorpunctuation"], [pc]),
   (["pd", "dashpunctuation"], [pd]), (["ps", "openpunctuation"], [ps]),
   (["pe", "closepunctuation"], [pe]), (["pi", "initialpunctuation"], [pi]),
   (["pf", "finalpunctuation"], [pf]), (["po", "otherpunctuation"], [po]),
   (["sm", "mathsymbol"], [sm]), (["sc", "currencysymbol"], [sc]),
   (["sk", "modifiersymbol"], [sk]), (["so", "othersymbol"], [so]),
   (["zs", "spaceseparator"], [zs]), (["zl", "lineseparator"], [zl]),
   (["zp", "paragraphseparator"], [zp]), (["cc", "control", "cntrl"], [cc]),
   (["cf", "format"], [cf]), (["co", "privateuse"], [co]),
   (["cn", "unassigned"], [cn])]

/-- **The set of a category by its name.** -/
def category? (name : String) : Option CharSet :=
  if name == "any" then some .all
  else if name == "ascii" then some (.range 0 0x7F)
  else if name == "assigned" then some unassigned.compl
  else (categoryNames.find? fun entry => entry.1.contains name).map fun entry =>
    categories entry.2

end StreamScript.Regex
