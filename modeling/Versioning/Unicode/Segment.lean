import Versioning.Unicode.Binary
import Versioning.Unicode.Script

/-!
# Breaks

Where a text is parted into what is shown as one character, into words and into sentences depends
on three properties of its characters. Each of them sorts the characters into a few classes;
those that are in no class behave like most others and have no name.

* `graphemeBreaks`, `wordBreaks` and `sentenceBreaks` are the classes.
-/

namespace Versioning.Unicode

/-- The characters that spell out the code of a flag. -/
def tags : List (Nat × Nat) :=
  [(0xE0020, 0xE007F)]

/-- Signs that are written before the digits they enclose. The abbreviation mark of the Syriac
    script encloses letters. -/
def enclosesDigits (c : Char) : Bool :=
  among prependedMarks c && c.toNat != 0x70F

/-! ## What is shown as one character -/

/-- A mark that is drawn with the one before it, or a modifier of an emoji. -/
def extendsShown (c : Char) : Bool :=
  extendsGrapheme c || among emojiModifiers c

/-- Letters and marks that are drawn with the character behind them. -/
def prepended : List (Nat × Nat) :=
  [(0xD4E, 0xD4E), (0x111C2, 0x111C3), (0x113D1, 0x113D1), (0x1193F, 0x1193F), (0x11941, 0x11941),
   (0x11A3A, 0x11A3A), (0x11A84, 0x11A89), (0x11D46, 0x11D46), (0x11F02, 0x11F02)]

/-- A character that is drawn with the one behind it. -/
def isPrepended (c : Char) : Bool :=
  among prependedMarks c || among prepended c

/-- A character without a form that parts what is before it from what is behind it. -/
def isShownApart (c : Char) : Bool :=
  let category := Category.of c
  ([.lineSeparator, .paragraphSeparator, .control, .format].contains category
      || category == .unassigned && isIgnorable c)
    && !among [(0xA, 0xA), (0xD, 0xD), (0x200C, 0x200D)] c
    && !isPrepended c && !extendsShown c

/-- Marks with a place of their own that are drawn apart from the character before them. -/
def spacedApart : List (Nat × Nat) :=
  [(0x102B, 0x102C), (0x1038, 0x1038), (0x1062, 0x1064), (0x1067, 0x106D), (0x1083, 0x1083),
   (0x1087, 0x108C), (0x108F, 0x108F), (0x109A, 0x109C), (0x1A61, 0x1A61), (0x1A63, 0x1A64),
   (0xAA7B, 0xAA7B), (0xAA7D, 0xAA7D), (0x11720, 0x11721)]

/-- A mark with a place of its own, or a vowel that is used like one. -/
def isSpacingMark (c : Char) : Bool :=
  Category.of c == .spacingMark && !extendsGrapheme c && !among spacedApart c
    || among [(0xE33, 0xE33), (0xEB3, 0xEB3)] c

/-- A syllable of the Hangul script; every 28th one has no consonant at its end. -/
def isSyllable (closed : Bool) (c : Char) : Bool :=
  among [(0xAC00, 0xD7A3)] c && ((c.toNat - 0xAC00) % 28 != 0) == closed

/-- The classes that tell what is shown as one character. -/
def graphemeBreaks : List NamedSet :=
  [⟨["cn", "control"], isShownApart⟩,
   ⟨["cr"], among [(0xD, 0xD)]⟩,
   ⟨["ex", "extend"], extendsShown⟩,
   ⟨["l"], among [(0x1100, 0x115F), (0xA960, 0xA97C)]⟩,
   ⟨["lf"], among [(0xA, 0xA)]⟩,
   ⟨["lv"], isSyllable false⟩,
   ⟨["lvt"], isSyllable true⟩,
   ⟨["pp", "prepend"], isPrepended⟩,
   ⟨["ri", "regionalindicator"], among regionalIndicators⟩,
   ⟨["sm", "spacingmark"], isSpacingMark⟩,
   ⟨["t"], among [(0x11A8, 0x11FF), (0xD7CB, 0xD7FB)]⟩,
   ⟨["v"], among [(0x1160, 0x11A7), (0xD7B0, 0xD7C6), (0x16D63, 0x16D63), (0x16D67, 0x16D6A)]⟩,
   ⟨["zwj"], among [(0x200D, 0x200D)]⟩]

/-! ## Sentences -/

/-- A mark, or the sign that joins two characters. -/
def extendsInSentence (c : Char) : Bool :=
  extendsGrapheme c || Category.of c == .spacingMark || c.toNat == 0x200D

/-- A small letter, if its script writes the beginning of a sentence with a capital. -/
def isLowerInSentence (c : Char) : Bool :=
  isLowercase c && !extendsGrapheme c && !among smallGeorgian c

/-- A capital, if its script writes the beginning of a sentence with one. -/
def isUpperInSentence (c : Char) : Bool :=
  (isUppercase c || Category.of c == .titlecaseLetter) && !extendsGrapheme c
    && !among [(0x1C90, 0x1CBA), (0x1CBD, 0x1CBF)] c

/-- A letter of any other kind. -/
def isOtherInSentence (c : Char) : Bool :=
  isAlphabetic c && !isLowerInSentence c && !isUpperInSentence c && !extendsInSentence c
    || c.toNat == 0x5F3

/-- A digit, or a sign of numbers. -/
def isNumericInSentence (c : Char) : Bool :=
  isDecimalDigit c || enclosesDigits c || among [(0x66B, 0x66C), (0x19DA, 0x19DA)] c

/-- A character that tells how others are to be drawn. -/
def isFormatInSentence (c : Char) : Bool :=
  Category.of c == .format && !enclosesDigits c && !among tags c
    && !among [(0x200C, 0x200D)] c

/-- The full stop, which is also behind abbreviations and in numbers. -/
def fullStops : List (Nat × Nat) :=
  [(0x2E, 0x2E), (0x2024, 0x2024), (0xFE52, 0xFE52), (0xFF0E, 0xFF0E)]

/-- A closing or an opening bracket or quotation mark. -/
def isClosing (c : Char) : Bool :=
  [.openPunctuation, .closePunctuation, .initialPunctuation, .finalPunctuation].contains
      (Category.of c)
    || among
        [(0x22, 0x22), (0x27, 0x27), (0x275B, 0x2760), (0x2E00, 0x2E01), (0x2E06, 0x2E08),
         (0x2E0B, 0x2E0B), (0x1F676, 0x1F678)] c

/-- The classes that tell where a sentence ends. -/
def sentenceBreaks : List NamedSet :=
  [⟨["at", "aterm"], among fullStops⟩,
   ⟨["cl", "close"], isClosing⟩,
   ⟨["cr"], among [(0xD, 0xD)]⟩,
   ⟨["ex", "extend"], extendsInSentence⟩,
   ⟨["fo", "format"], isFormatInSentence⟩,
   ⟨["lf"], among [(0xA, 0xA)]⟩,
   ⟨["lo", "lower"], isLowerInSentence⟩,
   ⟨["nu", "numeric"], isNumericInSentence⟩,
   ⟨["le", "oletter"], isOtherInSentence⟩,
   ⟨["sc", "scontinue"], among
      [(0x2C, 0x2D), (0x3A, 0x3B), (0x37E, 0x37E), (0x55D, 0x55D), (0x60C, 0x60D), (0x7F8, 0x7F8),
       (0x1802, 0x1802), (0x1808, 0x1808), (0x2013, 0x2014), (0x3001, 0x3001), (0xFE10, 0xFE11),
       (0xFE13, 0xFE14), (0xFE31, 0xFE32), (0xFE50, 0xFE51), (0xFE54, 0xFE55), (0xFE58, 0xFE58),
       (0xFE63, 0xFE63), (0xFF0C, 0xFF0D), (0xFF1A, 0xFF1B), (0xFF64, 0xFF64)]⟩,
   ⟨["se", "sep"], among [(0x85, 0x85), (0x2028, 0x2029)]⟩,
   ⟨["sp"], among
      [(0x9, 0x9), (0xB, 0xC), (0x20, 0x20), (0xA0, 0xA0), (0x1680, 0x1680), (0x2000, 0x200A),
       (0x202F, 0x202F), (0x205F, 0x205F), (0x3000, 0x3000)]⟩,
   ⟨["st", "sterm"], fun c => sentenceTerminals.has c && !among fullStops c⟩,
   ⟨["up", "upper"], isUpperInSentence⟩]

/-! ## Words -/

/-- A mark, or a modifier of an emoji. -/
def extendsInWord (c : Char) : Bool :=
  extendsShown c || Category.of c == .spacingMark

/-- A letter of the Hebrew script. -/
def isHebrewLetter (c : Char) : Bool :=
  Category.of c == .otherLetter && scriptOf c == "hebr"

/-- A sign of the Katakana script, or one that is used with them. -/
def isKatakana (c : Char) : Bool :=
  scriptOf c == "kana"
    || among
        [(0x3031, 0x3035), (0x309B, 0x309C), (0x30A0, 0x30A0), (0x30FC, 0x30FC), (0xFF70, 0xFF70)] c

/-- The scripts that are written without blanks between words, by their codes. -/
def scriptsWithoutBlanks : List String :=
  ["hira", "thai", "laoo", "mymr", "khmr", "tale", "talu", "lana", "tavt", "ahom"]

/-- Signs that are used like letters of a word. -/
def wordSigns : List (Nat × Nat) :=
  [(0x2C2, 0x2C5), (0x2D2, 0x2D7), (0x2DE, 0x2DF), (0x2E5, 0x2EB), (0x2ED, 0x2ED), (0x2EF, 0x2FF),
   (0x55A, 0x55C), (0x55E, 0x55E), (0x58A, 0x58A), (0x5F3, 0x5F3), (0x70F, 0x70F), (0xA708, 0xA716),
   (0xA720, 0xA721), (0xA789, 0xA78A), (0xAB5B, 0xAB5B)]

/-- A letter of a script that parts words by blanks. -/
def isWordLetter (c : Char) : Bool :=
  isAlphabetic c && !extendsInWord c && !isKatakana c && !isHebrewLetter c
      && !among ideographs c && !scriptsWithoutBlanks.contains (scriptOf c)
    || among wordSigns c

/-- The classes that tell where a word ends. -/
def wordBreaks : List NamedSet :=
  [⟨["le", "aletter"], isWordLetter⟩,
   ⟨["cr"], among [(0xD, 0xD)]⟩,
   ⟨["dq", "doublequote"], among [(0x22, 0x22)]⟩,
   ⟨["extend"], extendsInWord⟩,
   ⟨["ex", "extendnumlet"], among
      [(0x5F, 0x5F), (0x202F, 0x202F), (0x203F, 0x2040), (0x2054, 0x2054), (0xFE33, 0xFE34),
       (0xFE4D, 0xFE4F), (0xFF3F, 0xFF3F)]⟩,
   ⟨["fo", "format"], fun c => isFormatInSentence c && !among [(0x70F, 0x70F), (0x200B, 0x200B)] c⟩,
   ⟨["hl", "hebrewletter"], isHebrewLetter⟩,
   ⟨["ka", "katakana"], isKatakana⟩,
   ⟨["lf"], among [(0xA, 0xA)]⟩,
   ⟨["ml", "midletter"], among midLetters⟩,
   ⟨["mn", "midnum"], among
      [(0x2C, 0x2C), (0x3B, 0x3B), (0x37E, 0x37E), (0x589, 0x589), (0x60C, 0x60D), (0x66C, 0x66C),
       (0x7F8, 0x7F8), (0x2044, 0x2044), (0xFE50, 0xFE50), (0xFE54, 0xFE54), (0xFF0C, 0xFF0C),
       (0xFF1B, 0xFF1B)]⟩,
   ⟨["mb", "midnumlet"], among midNumLets⟩,
   ⟨["nl", "newline"], among [(0xB, 0xC), (0x85, 0x85), (0x2028, 0x2029)]⟩,
   ⟨["nu", "numeric"], fun c => isNumericInSentence c && c.toNat != 0x66C⟩,
   ⟨["ri", "regionalindicator"], among regionalIndicators⟩,
   ⟨["sq", "singlequote"], among [(0x27, 0x27)]⟩,
   ⟨["wsegspace"], among
      [(0x20, 0x20), (0x1680, 0x1680), (0x2000, 0x2006), (0x2008, 0x200A), (0x205F, 0x205F),
       (0x3000, 0x3000)]⟩,
   ⟨["zwj"], among [(0x200D, 0x200D)]⟩]

end Versioning.Unicode
