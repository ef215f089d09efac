import BimAudit.Unicode.Property
import BimAudit.Unicode.Script

/-!
# Boundaries in texts

Where a text may be cut into characters as a reader sees them, into words and into sentences depends
on what kinds of characters meet. For each of the three cuts every character is of at most one kind,
which follows from its other properties, a few characters apart.

* `clusterKind?`, `wordKind?`, `sentenceKind?`: the characters of a kind.
-/

namespace BimAudit.Unicode

/-- Line feed, carriage return, and the joiners. -/
def breakControls : CharSet := .ofTable "A D 200C-200D"

/-- Signs written in front of the characters that they belong to. -/
def prependedMarks : CharSet := properties ["pcm"]

/-- Signs for the layout of a text, without those that are written. -/
def formatSigns : CharSet :=
  (categories ["cf"]).diff (.unions [breakControls, prependedMarks, graphemeExtend])

/-- Marks of any kind, and what extends a character. -/
def trailingMarks : CharSet := graphemeExtend.union (categories ["mc"])

/-- Decimal digits and signs around numbers. -/
def numberParts : CharSet :=
  (CharSet.unions [digits, prependedMarks, .ofTable "66B 19DA"]).diff (.ofTable "70F")

/-! ### Characters as a reader sees them -/

/-- The syllables of Hangul without a final consonant. -/
def openSyllables : CharSet := .ofTable "AC00-D788/1C"

/-- The characters of a kind, for cuts between characters as a reader sees them. -/
def clusterKind? (name : String) : Option CharSet :=
  match name with
  | "cr" => some (.single '\r')
  | "lf" => some (.single '\n')
  | "zwj" => some (.ofTable "200D")
  | "cn" | "control" =>
    some ((CharSet.unions [categories ["cc", "cf", "zl", "zp"],
      (properties ["di"]).diff assigned]).diff
        (.unions [breakControls, prependedMarks, graphemeExtend]))
  | "ex" | "extend" => some (graphemeExtend.union (properties ["emod"]))
  | "pp" | "prepend" =>
    some (prependedMarks.union
      (.ofTable "D4E 111C2-111C3 113D1 1193F 11941 11A84-11A89 11D46 11F02"))
  | "sm" | "spacingmark" =>
    some (((categories ["mc"]).union (.ofTable "E33 EB3")).diff
      (graphemeExtend.union
        (.ofTable "102B-102C 1038 1062-1064 1067-106D 1083 1087-108C 108F 109A-109C 1A61 1A63-1A64
          AA7B AA7D 11720-11721")))
  | "ri" | "regionalindicator" => some (properties ["ri"])
  | "l" => some (.ofTable "1100-115F A960-A97C")
  | "v" => some (.ofTable "1160-11A7 D7B0-D7C6 16D63 16D67-16D6A")
  | "t" => some (.ofTable "11A8-11FF D7CB-D7FB")
  | "lv" => some openSyllables
  | "lvt" => some ((CharSet.ofTable "AC00-D7A3").diff openSyllables)
  | _ => none

/-! ### Words -/

/-- Katakana, and what is written with it. -/
def katakana : CharSet :=
  ((script? "kana").getD .empty).union (.ofTable "3031-3035 309B-309C 30A0 30FC FF70")

/-- Letters of Hebrew. -/
def hebrewLetters : CharSet := ((script? "hebr").getD .empty).inter (categories ["lo"])

/-- Letters of languages that are written without blanks between the words. -/
def unspacedLetters : CharSet :=
  .ofTable "E01-E30 E32-E33 E40-E46 E81-E82 E84 E86-E8A E8C-EA3 EA5 EA7-EB0 EB2-EB3 EBD EC0-EC4 EC6
    EDC-EDF 1000-102A 103F 1050-1055 105A-105D 1061 1065-1066 106E-1070 1075-1081 108E 1780-17B3
    17D7 17DC 1950-196D 1970-1974 1980-19AB 19B0-19C9 1A20-1A54 1AA7 A9E0-A9E4 A9E6-A9EF A9FA-A9FE
    AA60-AA76 AA7A AA7E-AAAF AAB1 AAB5-AAB6 AAB9-AABD AAC0 AAC2 AADB-AADD 11700-1171A 11740-11746"

/-- Signs that count as letters within words. -/
def letterLike : CharSet :=
  .ofTable "B8 2C2-2C5 2D2-2D7 2DE-2DF 2E5-2EB 2ED 2EF-2FF 55A-55C 55E 58A 5F3 70F A708-A716
    A720-A721 A789-A78A AB5B"

/-- The characters of a kind, for cuts between words. -/
def wordKind? (name : String) : Option CharSet :=
  match name with
  | "cr" => some (.single '\r')
  | "lf" => some (.single '\n')
  | "zwj" => some (.ofTable "200D")
  | "nl" | "newline" => some (.ofTable "B-C 85 2028-2029")
  | "wsegspace" => some (.ofTable "20 1680 2000-2006 2008-200A 205F 3000")
  | "dq" | "doublequote" => some (.single '"')
  | "sq" | "singlequote" => some (.single '\'')
  | "mn" | "midnum" => some (.ofTable "2C 3B 37E 589 60C-60D 66C 7F8 2044 FE50 FE54 FF0C FF1B")
  | "mb" | "midnumlet" => some (.ofTable "2E 2018-2019 2024 FE52 FF07 FF0E")
  | "ml" | "midletter" => some (.ofTable "3A B7 387 55F 5F4 2027 FE13 FE55 FF1A")
  | "ex" | "extendnumlet" => some (.ofTable "5F 202F 203F-2040 2054 FE33-FE34 FE4D-FE4F FF3F")
  | "ri" | "regionalindicator" => some (properties ["ri"])
  | "extend" => some (trailingMarks.union (properties ["emod"]))
  | "fo" | "format" => some (formatSigns.diff (.ofTable "200B"))
  | "nu" | "numeric" => some numberParts
  | "ka" | "katakana" => some katakana
  | "hl" | "hebrewletter" => some hebrewLetters
  | "le" | "aletter" =>
    some ((alphabetic.diff (.unions [properties ["ideo"], (script? "hira").getD .empty, katakana,
      hebrewLetters, trailingMarks, unspacedLetters])).union letterLike)
  | _ => none

/-! ### Sentences -/

/-- Signs that end a line. -/
def lineEnds : CharSet := .ofTable "A D 85 2028-2029"

/-- Full stops, which need not end a sentence. -/
def fullStops : CharSet := .ofTable "2E 2024 FE52 FF0E"

/-- Letters of lower case in scripts that use both cases in running text. -/
def lowerLetters : CharSet :=
  lowercase.diff (graphemeExtend.union (.ofTable "10D0-10FA 10FD-10FF"))

/-- Letters of upper or title case in scripts that use both cases in running text. -/
def upperLetters : CharSet :=
  (uppercase.union (categories ["lt"])).diff (.ofTable "1C90-1CBA 1CBD-1CBF")

/-- The characters of a kind, for cuts between sentences. -/
def sentenceKind? (name : String) : Option CharSet :=
  match name with
  | "cr" => some (.single '\r')
  | "lf" => some (.single '\n')
  | "se" | "sep" => some (.ofTable "85 2028-2029")
  | "ex" | "extend" => some (trailingMarks.union (.ofTable "200D"))
  | "fo" | "format" => some (formatSigns.union (.ofTable "70F"))
  | "sp" => some (whiteSpace.diff lineEnds)
  | "lo" | "lower" => some lowerLetters
  | "up" | "upper" => some upperLetters
  | "le" | "oletter" =>
    some ((alphabetic.union (.ofTable "5F3")).diff
      (.unions [lowerLetters, upperLetters, trailingMarks]))
  | "nu" | "numeric" => some (numberParts.union (.ofTable "66B-66C"))
  | "at" | "aterm" => some fullStops
  | "sc" | "scontinue" =>
    some (.ofTable "2C-2D 3A-3B 37E 55D 60C-60D 7F8 1802 1808 2013-2014 3001 FE10-FE11 FE13-FE14
      FE31-FE32 FE50-FE51 FE54-FE55 FE58 FE63 FF0C-FF0D FF1A-FF1B FF64")
  | "st" | "sterm" => some ((properties ["sterm"]).diff fullStops)
  | "cl" | "close" =>
    some ((categories ["ps", "pe", "pi", "pf"]).union
      (.ofTable "22 27 275B-2760 2E00-2E01 2E06-2E08 2E0B 1F676-1F678"))
  | _ => none

end BimAudit.Unicode
