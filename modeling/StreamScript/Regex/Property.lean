import StreamScript.Regex.Category
import StreamScript.Regex.PropertyTable

/-!
# Properties by name

Most properties of characters follow from their general categories and a list
of further characters, and are built that way here: the alphabetic characters
are the letters, the letter numbers, and those that `otherAlphabetic` lists. A
property that follows from nothing is a list of its own.

`propertyTable` gives each property its names.
-/

namespace StreamScript.Regex

namespace Property

open Text (CharSet)
open Category

/-! ## Letters and case -/

/-- Small letters. -/
def lowercase : CharSet := ll.set.union otherLowercase

/-- Capital letters. -/
def uppercase : CharSet := lu.set.union otherUppercase

/-- Characters that take part in case. -/
def cased : CharSet := .unionAll [lowercase, uppercase, lt.set]

/-- Letters and what is used like them. -/
def alphabetic : CharSet :=
  .unionAll [lowercase, uppercase, categories [lt, lm, lo, nl], otherAlphabetic]

/-- Characters that may stand between cased ones without interrupting a word. -/
def caseIgnorable : CharSet :=
  (categories [mn, me, cf, lm, sk]).union (.ofRanges
    [(0x27, 0x27), (0x2E, 0x2E), (0x3A, 0x3A), (0xB7, 0xB7), (0x387, 0x387),
     (0x55F, 0x55F),
     (0x5F4, 0x5F4), (0x2018, 0x2019), (0x2024, 0x2024), (0x2027, 0x2027),
     (0xFE13, 0xFE13),
     (0xFE52, 0xFE52), (0xFE55, 0xFE55), (0xFF07, 0xFF07), (0xFF0E, 0xFF0E),
     (0xFF1A, 0xFF1A)])

/-- Characters that have a lower case of their own. -/
def changesLowercased : CharSet :=
  ((categories [lu, lt]).diff capitalsWithoutLower).union
    (.ofRanges [(0x2160, 0x216F), (0x24B6, 0x24CF)])

/-- Characters that have an upper case of their own. -/
def changesUppercased : CharSet :=
  ((categories [ll, lt]).diff smallWithoutUpper).union
    (.ofRanges [(0x345, 0x345), (0x2170, 0x217F), (0x24D0, 0x24E9)])

/-- Characters that change at the beginning of a title: the letters of two
capitals do, those already in title case and the Georgian ones do not. -/
def changesTitlecased : CharSet :=
  (changesUppercased.diff
    (lt.set.union (.ofRanges [(0x10D0, 0x10FA), (0x10FD, 0x10FF)]))).union
    (.ofRanges [(0x1C4, 0x1C4), (0x1C7, 0x1C7), (0x1CA, 0x1CA), (0x1F1, 0x1F1)])

/-- Characters that change when case is folded: capitals but for Cherokee, whose
small letters change instead, and small letters that are variants of others. -/
def changesFolded : CharSet :=
  (changesLowercased.diff (.range 0x13A0 0x13F5)).union (.ofRanges
    [(0xB5, 0xB5), (0xDF, 0xDF), (0x149, 0x149), (0x17F, 0x17F), (0x345, 0x345),
     (0x3C2, 0x3C2),
     (0x3D0, 0x3D1), (0x3D5, 0x3D6), (0x3F0, 0x3F1), (0x3F5, 0x3F5),
     (0x587, 0x587),
     (0x13F8, 0x13FD), (0x1C80, 0x1C88), (0x1E9A, 0x1E9B), (0x1F80, 0x1F87),
     (0x1F90, 0x1F97),
     (0x1FA0, 0x1FA7), (0x1FB2, 0x1FB4), (0x1FB7, 0x1FB7), (0x1FC2, 0x1FC4),
     (0x1FC7, 0x1FC7),
     (0x1FF2, 0x1FF4), (0x1FF7, 0x1FF7), (0xAB70, 0xABBF), (0xFB00, 0xFB06),
     (0xFB13, 0xFB17)])

/-- Characters that some change of case changes. -/
def changesCasemapped : CharSet :=
  .unionAll [changesLowercased, changesUppercased, changesTitlecased]

/-! ## Identifiers -/

/-- Characters that have a meaning of their own in patterns. -/
def patternChars : CharSet := patternSyntax.union patternBlank

/-- Characters that begin identifiers. -/
def idStart : CharSet :=
  ((categories (letters ++ [nl])).union otherIdStart).diff patternChars

/-- Characters that may stand in identifiers. -/
def idContinue : CharSet :=
  (CharSet.unionAll [idStart, categories [mn, mc, nd, pc],
    otherIdContinue]).diff patternChars

/-- Characters of identifiers whose decomposition leaves them. -/
def splitContinue : CharSet :=
  .ofRanges [(0x37A, 0x37A), (0x309B, 0x309C), (0xFC5E, 0xFC63),
    (0xFDFA, 0xFDFB), (0xFE70, 0xFE70), (0xFE72, 0xFE72), (0xFE74, 0xFE74),
    (0xFE76, 0xFE76), (0xFE78, 0xFE78),
    (0xFE7A, 0xFE7A), (0xFE7C, 0xFE7C), (0xFE7E, 0xFE7E)]

/-- Characters whose decomposition begins no identifier. -/
def splitStart : CharSet :=
  splitContinue.union
    (.ofRanges [(0xE33, 0xE33), (0xEB3, 0xEB3), (0xFF9E, 0xFF9F)])

/-- Beginnings of identifiers that stay so under decomposition. -/
def xidStart : CharSet := idStart.diff splitStart

/-- Parts of identifiers that stay so under decomposition. -/
def xidContinue : CharSet := idContinue.diff splitContinue

/-! ## Graphemes -/

/-- Characters that extend the one before. -/
def graphemeExtend : CharSet := (categories [me, mn]).union otherGraphemeExtend

/-- Characters that stand on their own. -/
def graphemeBase : CharSet :=
  ((categories (others ++ [zl, zp])).union graphemeExtend).compl

/-- Characters that are not shown where they are unknown. -/
def defaultIgnorable : CharSet :=
  (CharSet.unionAll [otherDefaultIgnorable, cf.set, variationSelector]).diff
    (.unionAll [blank, prependedConcatenationMark,
      .ofRanges [(0xFFF9, 0xFFFB), (0x13430, 0x13440)]])

/-! ## Mathematics -/

/-- Characters of mathematics. -/
def math : CharSet := sm.set.union otherMath

end Property

open Property in
/-- **The properties that a character has or has not**, by their names. -/
def propertyTable : List NamedSet :=
  [(["alpha", "alphabetic"], alphabetic),
   (["ahex", "asciihexdigit"], asciiHexDigit),
   (["bidic", "bidicontrol"], bidiControl),
   (["ci", "caseignorable"], caseIgnorable),
   (["cased"], cased),
   (["cwcf", "changeswhencasefolded"], changesFolded),
   (["cwcm", "changeswhencasemapped"], changesCasemapped),
   (["cwl", "changeswhenlowercased"], changesLowercased),
   (["cwt", "changeswhentitlecased"], changesTitlecased),
   (["cwu", "changeswhenuppercased"], changesUppercased),
   (["dash"], dash),
   (["di", "defaultignorablecodepoint"], defaultIgnorable),
   (["dep", "deprecated"], deprecatedChars),
   (["dia", "diacritic"], diacritic),
   (["emoji"], emoji),
   (["ecomp", "emojicomponent"], emojiComponent),
   (["emod", "emojimodifier"], emojiModifier),
   (["ebase", "emojimodifierbase"], emojiModifierBase),
   (["epres", "emojipresentation"], emojiPresentation),
   (["extpict", "extendedpictographic"], extendedPictographic),
   (["ext", "extender"], extender),
   (["grbase", "graphemebase"], graphemeBase),
   (["grext", "graphemeextend"], graphemeExtend),
   (["grlink", "graphemelink"], graphemeLink),
   (["hex", "hexdigit"], hexDigits),
   (["hyphen"], hyphen),
   (["idsb", "idsbinaryoperator"], idsBinaryOperator),
   (["idst", "idstrinaryoperator"], idsTrinaryOperator),
   (["idsu", "idsunaryoperator"], idsUnaryOperator),
   (["idcompatmathcontinue"], idCompatMathContinue),
   (["idcompatmathstart"], idCompatMathStart),
   (["idc", "idcontinue"], idContinue),
   (["ids", "idstart"], idStart),
   (["ideo", "ideographic"], ideographic),
   (["joinc", "joincontrol"], joinControl),
   (["loe", "logicalorderexception"], logicalOrderException),
   (["lower", "lowercase"], lowercase),
   (["math"], math),
   (["mcm", "modifiercombiningmark"], modifierCombiningMark),
   (["nchar", "noncharactercodepoint"], noncharacter),
   (["oalpha", "otheralphabetic"], otherAlphabetic),
   (["odi", "otherdefaultignorablecodepoint"], otherDefaultIgnorable),
   (["ogrext", "othergraphemeextend"], otherGraphemeExtend),
   (["oidc", "otheridcontinue"], otherIdContinue),
   (["oids", "otheridstart"], otherIdStart),
   (["olower", "otherlowercase"], otherLowercase),
   (["omath", "othermath"], otherMath),
   (["oupper", "otheruppercase"], otherUppercase),
   (["patsyn", "patternsyntax"], patternSyntax),
   (["patws", "patternwhitespace"], patternBlank),
   (["pcm", "prependedconcatenationmark"], prependedConcatenationMark),
   (["qmark", "quotationmark"], quotationMark),
   (["radical"], radical),
   (["ri", "regionalindicator"], regionalIndicator),
   (["sterm", "sentenceterminal"], sentenceTerminal),
   (["sd", "softdotted"], softDotted),
   (["term", "terminalpunctuation"], terminalPunctuation),
   (["uideo", "unifiedideograph"], unifiedIdeograph),
   (["upper", "uppercase"], uppercase),
   (["vs", "variationselector"], variationSelector),
   (["wspace", "whitespace", "space"], blank),
   (["xidc", "xidcontinue"], xidContinue),
   (["xids", "xidstart"], xidStart)]

end StreamScript.Regex
