import StreamScript.Regex.Property

/-!
# Breaks between graphemes, words and sentences

Three properties say how characters behave where a text is cut: into graphemes,
into words, into sentences. Each gives a character one of a few values, and
`graphemeBreaks`, `wordBreaks` and `sentenceBreaks` list the characters of each
value. Characters with the remaining value, which has no say in where a text is
cut, are not listed.
-/

namespace StreamScript.Regex

open Text (CharSet)
open Category Property

namespace TextBreak

/-! ## Characters with a value of their own -/

/-- The carriage return. -/
def carriageReturn : CharSet := .single '\r'

/-- The line feed. -/
def lineFeed : CharSet := .single '\n'

/-- The joiner. -/
def joiner : CharSet := .range 0x200D 0x200D

/-! ## Graphemes -/

/-- Characters that extend a grapheme. -/
def extend : CharSet := graphemeExtend.union emojiModifier

/-- Marks that take part in a grapheme but are no extension: spacing marks but
for some of Myanmar, Tai Tham and Ahom, and two vowels of Thai and Lao. -/
def spacing : CharSet :=
  (mc.set.diff (extend.union (.ofRanges
    [(0x102B, 0x102C), (0x1038, 0x1038), (0x1062, 0x1064), (0x1067, 0x106D),
     (0x1083, 0x1083), (0x1087, 0x108C), (0x108F, 0x108F), (0x109A, 0x109C),
     (0x1A61, 0x1A61), (0x1A63, 0x1A64), (0xAA7B, 0xAA7B), (0xAA7D, 0xAA7D),
     (0x11720, 0x11721)]))).union
  (.ofRanges [(0xE33, 0xE33), (0xEB3, 0xEB3)])

/-- Controls, and what is like them. -/
def control : CharSet :=
  (CharSet.unionAll [categories [zl, zp, cc, cf],
    unassigned.inter defaultIgnorable]).diff
    (.unionAll [carriageReturn, lineFeed, .range 0x200C 0x200D,
      prependedConcatenationMark, extend])

/-- Characters that belong to the one behind. -/
def prepend : CharSet := .ofRanges
    [(0x600, 0x605), (0x6DD, 0x6DD), (0x70F, 0x70F), (0x890, 0x891),
     (0x8E2, 0x8E2),
     (0xD4E, 0xD4E), (0x110BD, 0x110BD), (0x110CD, 0x110CD), (0x111C2, 0x111C3),
     (0x113D1, 0x113D1), (0x1193F, 0x1193F), (0x11941, 0x11941),
     (0x11A84, 0x11A89),
     (0x11D46, 0x11D46), (0x11F02, 0x11F02)]

/-- Leading consonants of Hangul. -/
def leadingJamo : CharSet := .ofRanges [(0x1100, 0x115F), (0xA960, 0xA97C)]

/-- Vowels of Hangul, and those of Kirat Rai. -/
def vowelJamo : CharSet := .ofRanges
    [(0x1160, 0x11A7), (0xD7B0, 0xD7C6), (0x16D63, 0x16D63), (0x16D67, 0x16D6A)]

/-- Trailing consonants of Hangul. -/
def trailingJamo : CharSet := .ofRanges [(0x11A8, 0x11FF), (0xD7CB, 0xD7FB)]

/-- Syllables of Hangul without a trailing consonant: one in twenty-eight. -/
def openSyllables : CharSet :=
  .ofCodes ((List.range 399).map fun i => 0xAC00 + 28 * i)

/-- The other syllables of Hangul. -/
def closedSyllables : CharSet :=
  (CharSet.range 0xAC00 0xD7A3).diff openSyllables

/-! ## Words -/

/-- Characters that continue a word. -/
def wordExtend : CharSet := extend.union mc.set

/-- Katakana, and what is written with it. -/
def katakana : CharSet := .ofRanges
    [(0x3031, 0x3035), (0x309B, 0x309C), (0x30A0, 0x30FA), (0x30FC, 0x30FF),
     (0x31F0, 0x31FF), (0x32D0, 0x32FE), (0x3300, 0x3357), (0xFF66, 0xFF9D),
     (0x1AFF0, 0x1AFF3), (0x1AFF5, 0x1AFFB), (0x1AFFD, 0x1AFFE),
     (0x1B000, 0x1B000),
     (0x1B120, 0x1B122), (0x1B155, 0x1B155), (0x1B164, 0x1B167)]

/-- Letters of Hebrew. -/
def hebrewLetter : CharSet :=
  ((findSet scriptTable "hebr").getD .empty).inter lo.set

/-- Format characters that do not interrupt a word. -/
def wordFormat : CharSet := .ofRanges
    [(0xAD, 0xAD), (0x61C, 0x61C), (0x180E, 0x180E), (0x200E, 0x200F),
     (0x202A, 0x202E),
     (0x2060, 0x2064), (0x2066, 0x206F), (0xFEFF, 0xFEFF), (0xFFF9, 0xFFFB),
     (0x13430, 0x1343F), (0x1BCA0, 0x1BCA3), (0x1D173, 0x1D17A),
     (0xE0001, 0xE0001)]

/-- Letters of scripts that do not keep words apart. -/
def runningLetters : CharSet := .ofGaps
  ["e01 30 1 2 c 7 3a 2 1 1 1 5 1 18 1 1 1 a 1 2 9 1 2 5 1 1 15 4 120 2b 14 1 10 6 4 4 3 1 3",
   "2 7 3 4 d c 1 6f1 34 23 1 4 1 173 1e 2 5 b 2c 4 1a 56 35 52 1 1599 56 6 3 7940 5 1 a a 5",
   "61 17 3 1 3 32 1 1 3 2 2 5 2 1 1 1 18 3 6c22 1b 25 7 98ba 11f 12 1 1d 3"]

/-- Characters that are no letters but are used like them. -/
def letterLike : CharSet := .ofRanges
    [(0xB8, 0xB8), (0x2C2, 0x2C5), (0x2D2, 0x2D7), (0x2DE, 0x2DF),
     (0x2E5, 0x2EB),
     (0x2ED, 0x2ED), (0x2EF, 0x2FF), (0x55A, 0x55C), (0x55E, 0x55E),
     (0x58A, 0x58A),
     (0x5F3, 0x5F3), (0x70F, 0x70F), (0xA708, 0xA716), (0xA720, 0xA721),
     (0xA789, 0xA78A),
     (0xAB5B, 0xAB5B)]

/-- Letters that make words. -/
def wordLetter : CharSet :=
  (alphabetic.diff
    (.unionAll [ideographic, wordExtend, katakana, hebrewLetter,
      runningLetters])).union letterLike

/-- Marks that stand between letters. -/
def midLetter : CharSet := .ofRanges
    [(0x3A, 0x3A), (0xB7, 0xB7), (0x387, 0x387), (0x55F, 0x55F), (0x5F4, 0x5F4),
     (0x2027, 0x2027), (0xFE13, 0xFE13), (0xFE55, 0xFE55), (0xFF1A, 0xFF1A)]

/-- Marks that stand between digits. -/
def midNumber : CharSet := .ofRanges
    [(0x2C, 0x2C), (0x3B, 0x3B), (0x37E, 0x37E), (0x589, 0x589), (0x60C, 0x60D),
     (0x66C, 0x66C), (0x7F8, 0x7F8), (0x2044, 0x2044), (0xFE50, 0xFE50),
     (0xFE54, 0xFE54),
     (0xFF0C, 0xFF0C), (0xFF1B, 0xFF1B)]

/-- Marks that stand between letters or digits. -/
def midBoth : CharSet := .ofRanges
    [(0x2E, 0x2E), (0x2018, 0x2019), (0x2024, 0x2024), (0xFE52, 0xFE52),
     (0xFF07, 0xFF07),
     (0xFF0E, 0xFF0E)]

/-- Digits and signs of numbers. -/
def wordNumeric : CharSet :=
  nd.set.union (.ofRanges
    [(0x600, 0x605), (0x66B, 0x66B), (0x6DD, 0x6DD), (0x890, 0x891),
     (0x8E2, 0x8E2),
     (0x19DA, 0x19DA), (0x110BD, 0x110BD), (0x110CD, 0x110CD)])

/-- Connectors of words. -/
def connector : CharSet := pc.set.union (.range 0x202F 0x202F)

/-- Ends of lines but for the two of ASCII that have values of their own. -/
def newline : CharSet := .ofRanges [(0xB, 0xC), (0x85, 0x85), (0x2028, 0x2029)]

/-- Blanks that stay together. -/
def wordBlank : CharSet := .ofRanges
    [(0x20, 0x20), (0x1680, 0x1680), (0x2000, 0x2006), (0x2008, 0x200A),
     (0x205F, 0x205F),
     (0x3000, 0x3000)]

/-! ## Sentences -/

/-- Characters that continue what is before. -/
def sentenceExtend : CharSet := (wordExtend.diff emojiModifier).union joiner

/-- Small letters; those of Georgian count as letters without case. -/
def sentenceLower : CharSet :=
  lowercase.diff
    (graphemeExtend.union (.ofRanges [(0x10D0, 0x10FA), (0x10FD, 0x10FF)]))

/-- Capital letters but for those of Georgian. -/
def sentenceUpper : CharSet :=
  (lt.set.union uppercase).diff (.ofRanges [(0x1C90, 0x1CBA), (0x1CBD, 0x1CBF)])

/-- Letters without case. -/
def sentenceLetter : CharSet :=
  (alphabetic.diff (.unionAll [sentenceLower, sentenceUpper, sentenceExtend])).union
    (.range 0x5F3 0x5F3)

/-- Format characters that do not interrupt a sentence. -/
def sentenceFormat : CharSet :=
  wordFormat.union (.ofRanges [(0x70F, 0x70F), (0x200B, 0x200B)])

/-- Digits and signs of numbers. -/
def sentenceNumeric : CharSet := wordNumeric.union (.range 0x66C 0x66C)

/-- Full stops, which may end a sentence. -/
def fullStop : CharSet := .ofRanges
    [(0x2E, 0x2E), (0x2024, 0x2024), (0xFE52, 0xFE52), (0xFF0E, 0xFF0E)]

/-- Marks that do end one. -/
def sentenceEnd : CharSet := sentenceTerminal.diff fullStop

/-- Brackets and quotation marks. -/
def closing : CharSet :=
  (categories [ps, pe, pi, pf]).union (.ofRanges
    [(0x22, 0x22), (0x27, 0x27), (0x275B, 0x2760), (0x2E00, 0x2E01),
     (0x2E06, 0x2E08),
     (0x2E0B, 0x2E0B), (0x1F676, 0x1F678)])

/-- Marks behind which a sentence goes on. -/
def goingOn : CharSet := .ofRanges
    [(0x2C, 0x2D), (0x3A, 0x3B), (0x37E, 0x37E), (0x55D, 0x55D), (0x60C, 0x60D),
     (0x7F8, 0x7F8), (0x1802, 0x1802), (0x1808, 0x1808), (0x2013, 0x2014),
     (0x3001, 0x3001),
     (0xFE10, 0xFE11), (0xFE13, 0xFE14), (0xFE31, 0xFE32), (0xFE50, 0xFE51),
     (0xFE54, 0xFE55), (0xFE58, 0xFE58), (0xFE63, 0xFE63), (0xFF0C, 0xFF0D),
     (0xFF1A, 0xFF1B), (0xFF64, 0xFF64)]

/-- Separators of paragraphs. -/
def paragraphEnd : CharSet := .ofRanges [(0x85, 0x85), (0x2028, 0x2029)]

/-- Blanks. -/
def sentenceBlank : CharSet := .ofRanges
    [(0x9, 0x9), (0xB, 0xC), (0x20, 0x20), (0xA0, 0xA0), (0x1680, 0x1680),
     (0x2000, 0x200A),
     (0x202F, 0x202F), (0x205F, 0x205F), (0x3000, 0x3000)]

end TextBreak

open TextBreak

/-- **The values of the grapheme break**, by their names. -/
def graphemeBreaks : List NamedSet :=
  [(["cn", "control"], control), (["cr"], carriageReturn), (["lf"], lineFeed),
   (["ex", "extend"], extend), (["l"], leadingJamo), (["v"], vowelJamo),
   (["t"], trailingJamo),
   (["lv"], openSyllables), (["lvt"], closedSyllables),
   (["pp", "prepend"], prepend),
   (["ri", "regionalindicator"], regionalIndicator),
   (["sm", "spacingmark"], spacing),
   (["zwj"], joiner)]

/-- **The values of the word break**, by their names. -/
def wordBreaks : List NamedSet :=
  [(["le", "aletter"], wordLetter), (["fo", "format"], wordFormat),
   (["ka", "katakana"], katakana), (["ml", "midletter"], midLetter),
   (["mn", "midnum"], midNumber),
   (["nu", "numeric"], wordNumeric), (["ex", "extendnumlet"], connector),
   (["cr"], carriageReturn), (["lf"], lineFeed), (["extend"], wordExtend),
   (["mb", "midnumlet"], midBoth), (["nl", "newline"], newline),
   (["ri", "regionalindicator"], regionalIndicator),
   (["hl", "hebrewletter"], hebrewLetter),
   (["sq", "singlequote"], .single '\''), (["dq", "doublequote"], .single '"'),
   (["zwj"], joiner), (["wsegspace"], wordBlank)]

/-- **The values of the sentence break**, by their names. -/
def sentenceBreaks : List NamedSet :=
  [(["at", "aterm"], fullStop), (["cl", "close"], closing),
   (["fo", "format"], sentenceFormat),
   (["lo", "lower"], sentenceLower), (["nu", "numeric"], sentenceNumeric),
   (["le", "oletter"], sentenceLetter), (["se", "sep"], paragraphEnd),
   (["sp"], sentenceBlank), (["st", "sterm"], sentenceEnd),
   (["up", "upper"], sentenceUpper),
   (["cr"], carriageReturn), (["lf"], lineFeed),
   (["ex", "extend"], sentenceExtend),
   (["sc", "scontinue"], goingOn)]

end StreamScript.Regex
