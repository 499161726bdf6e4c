import Versioning.Unicode.Property
import Versioning.Unicode.CaseFold

/-!
# Binary properties

The properties that a character has or has not, by their names. Many of them follow from the
general category, from case folding and from short lists of characters that are added to the rest
or left out of it. What follows from nothing is a table of its own.

* `binaryProperties` are the sets of the characters with each property.
-/

namespace Versioning.Unicode

/-- Whether a character lies in one of the ranges. -/
def among (ranges : List (Nat × Nat)) (c : Char) : Bool :=
  inRanges ranges c.toNat

/-! ## Letters and their cases -/

/-- Marks, symbols and letters without case that look like small letters. -/
def otherLowercase : RunTable :=
  .ofLines
    ["170-1+15-1+501-9+7-2+30-5+96-1+52-1+3457-1+3119-63+13-1+34-37+689-1+13-1+16-13+211-16+848-",
     "26+1938-2+31262-2+210-1+129-3+3-2+866-4+9-1+23574-1+2-3+1-42+1-9+55413-62+1-"]

/-- Numbers and symbols that look like capitals. -/
def otherUppercase : List (Nat × Nat) :=
  [(0x2160, 0x216F), (0x24B6, 0x24CF), (0x1F130, 0x1F149), (0x1F150, 0x1F169), (0x1F170, 0x1F189)]

/-- A small letter, or a character that looks like one. -/
def isLowercase (c : Char) : Bool :=
  Category.of c == .lowercaseLetter || otherLowercase.has c

/-- A capital, or a character that looks like one. -/
def isUppercase (c : Char) : Bool :=
  Category.of c == .uppercaseLetter || among otherUppercase c

/-- A letter of any case. -/
def isCased (c : Char) : Bool :=
  isLowercase c || isUppercase c || Category.of c == .titlecaseLetter

/-- Punctuation between the letters of a word. -/
def midLetters : List (Nat × Nat) :=
  [(0x3A, 0x3A), (0xB7, 0xB7), (0x387, 0x387), (0x55F, 0x55F), (0x5F4, 0x5F4), (0x2027, 0x2027),
   (0xFE13, 0xFE13), (0xFE55, 0xFE55), (0xFF1A, 0xFF1A)]

/-- Punctuation between the letters of a word and between the digits of a number. -/
def midNumLets : List (Nat × Nat) :=
  [(0x2E, 0x2E), (0x2018, 0x2019), (0x2024, 0x2024), (0xFE52, 0xFE52), (0xFF07, 0xFF07),
   (0xFF0E, 0xFF0E)]

/-- A character that does not part a letter from those that decide on its case. -/
def isCaseIgnorable (c : Char) : Bool :=
  [.nonspacingMark, .enclosingMark, .format, .modifierLetter, .modifierSymbol].contains
      (Category.of c)
    || c == '\'' || among midLetters c || among midNumLets c

/-- Whether simple folding moves the character. -/
def isFolded (c : Char) : Bool :=
  foldCode c.toNat != c.toNat

/-- Whether simple folding moves another character to this one. -/
def isFoldTarget (c : Char) : Bool :=
  !(unfoldCode c.toNat).isEmpty

/-- The small letters of the Georgian script that are their own titlecase. -/
def smallGeorgian : List (Nat × Nat) :=
  [(0x10D0, 0x10FA), (0x10FD, 0x10FF)]

/-- Whether the character is not its own lower case. Small Cherokee letters are the ones that
    folding moves to capitals. -/
def changesWhenLowercased (c : Char) : Bool :=
  isFolded c && !isLowercase c || among [(0x130, 0x130), (0x13A0, 0x13F5)] c

/-- The small letters whose capitals are written with several characters, or fold elsewhere. -/
def capitalsElsewhere : List (Nat × Nat) :=
  [(0x131, 0x131), (0x149, 0x149), (0x1F0, 0x1F0), (0x587, 0x587), (0x1E96, 0x1E9A),
   (0x1F50, 0x1F50), (0x1F52, 0x1F52), (0x1F54, 0x1F54), (0x1F56, 0x1F56), (0x1FB2, 0x1FB2),
   (0x1FB4, 0x1FB4), (0x1FB6, 0x1FB7), (0x1FC2, 0x1FC2), (0x1FC4, 0x1FC4), (0x1FC6, 0x1FC7),
   (0x1FD2, 0x1FD2), (0x1FD6, 0x1FD7), (0x1FE2, 0x1FE2), (0x1FE4, 0x1FE4), (0x1FE6, 0x1FE7),
   (0x1FF2, 0x1FF2), (0x1FF4, 0x1FF4), (0x1FF6, 0x1FF7), (0xFB00, 0xFB04), (0xFB13, 0xFB17)]

/-- Whether the character is not its own upper case. -/
def changesWhenUppercased (c : Char) : Bool :=
  (isFolded c || isFoldTarget c || Category.of c == .titlecaseLetter) && !isUppercase c
    || among capitalsElsewhere c

/-- Whether the character is not its own titlecase, as the capitals of pairs of letters are not. -/
def changesWhenTitlecased (c : Char) : Bool :=
  changesWhenUppercased c && Category.of c != .titlecaseLetter && !among smallGeorgian c
    || among [(0x1C4, 0x1C4), (0x1C7, 0x1C7), (0x1CA, 0x1CA), (0x1F1, 0x1F1)] c

/-- The characters that only full folding moves, to several characters. -/
def foldedInFull : List (Nat × Nat) :=
  [(0xDF, 0xDF), (0x130, 0x130), (0x149, 0x149), (0x587, 0x587), (0x1E9A, 0x1E9A), (0x1F80, 0x1F87),
   (0x1F90, 0x1F97), (0x1FA0, 0x1FA7), (0x1FB2, 0x1FB4), (0x1FB7, 0x1FB7), (0x1FC2, 0x1FC4),
   (0x1FC7, 0x1FC7), (0x1FF2, 0x1FF4), (0x1FF7, 0x1FF7), (0xFB00, 0xFB04), (0xFB06, 0xFB06),
   (0xFB13, 0xFB17)]

/-- Whether full folding moves the character. -/
def changesWhenCasefolded (c : Char) : Bool :=
  isFolded c && !among [(0x1FBE, 0x1FBE), (0x1FD3, 0x1FD3), (0x1FE3, 0x1FE3)] c
    || among foldedInFull c

/-! ## Identifiers and syntax -/

/-- The signs that are left to the syntax of patterns. -/
def patternSyntax : RunTable :=
  .ofLines
    ["33-15+10-7+26-4+1-1+26-4+34-7+1-1+1-2+1-1+1-2+4-1+4-1+3-1+23-1+31-1+7960-24+8-15+2-19+1-10",
     "+305-720+160-630+30-1132+512-128+385-3+4-25+15-1+52493-2+261-2+1-"]

/-- The blanks that are left to the syntax of patterns. -/
def patternBlanks : List (Nat × Nat) :=
  [(0x9, 0xD), (0x20, 0x20), (0x85, 0x85), (0x200E, 0x200F), (0x2028, 0x2029)]

/-- A sign or a blank that is left to the syntax of patterns. -/
def isOfPatterns (c : Char) : Bool :=
  patternSyntax.has c || among patternBlanks c

/-- Symbols that may begin a name although no letters. -/
def otherIdStart : List (Nat × Nat) :=
  [(0x1885, 0x1886), (0x2118, 0x2118), (0x212E, 0x212E), (0x309B, 0x309C)]

/-- Characters that may be inside a name although no letters, marks or digits. -/
def otherIdContinue : List (Nat × Nat) :=
  [(0xB7, 0xB7), (0x387, 0x387), (0x1369, 0x1371), (0x19DA, 0x19DA), (0x200C, 0x200D),
   (0x30FB, 0x30FB), (0xFF65, 0xFF65)]

/-- A character that may begin a name. -/
def startsIdentifier (c : Char) : Bool :=
  let category := Category.of c
  (category.group == 'L' || category == .letterNumber || among otherIdStart c) && !isOfPatterns c

/-- A character that may be inside a name. -/
def continuesIdentifier (c : Char) : Bool :=
  startsIdentifier c
    || ([.nonspacingMark, .spacingMark, .decimalNumber, .connectorPunctuation].contains
          (Category.of c) || among otherIdContinue c) && !isOfPatterns c

/-- Characters that are decomposed into some that may not be inside a name. -/
def decomposedInNames : List (Nat × Nat) :=
  [(0x37A, 0x37A), (0x309B, 0x309C), (0xFC5E, 0xFC63), (0xFDFA, 0xFDFB), (0xFE70, 0xFE70),
   (0xFE72, 0xFE72), (0xFE74, 0xFE74), (0xFE76, 0xFE76), (0xFE78, 0xFE78), (0xFE7A, 0xFE7A),
   (0xFE7C, 0xFE7C), (0xFE7E, 0xFE7E)]

/-- Characters that are decomposed into some that may be inside a name only behind the first. -/
def decomposedAtStart : List (Nat × Nat) :=
  [(0xE33, 0xE33), (0xEB3, 0xEB3), (0xFF9E, 0xFF9F)]

/-- The signs of derivatives and of infinity, plain and in the mathematical alphabets. -/
def nabla : List (Nat × Nat) :=
  [(0x2202, 0x2202), (0x2207, 0x2207), (0x221E, 0x221E), (0x1D6C1, 0x1D6C1), (0x1D6DB, 0x1D6DB),
   (0x1D6FB, 0x1D6FB), (0x1D715, 0x1D715), (0x1D735, 0x1D735), (0x1D74F, 0x1D74F),
   (0x1D76F, 0x1D76F), (0x1D789, 0x1D789), (0x1D7A9, 0x1D7A9), (0x1D7C3, 0x1D7C3)]

/-- Digits and signs that are raised or lowered. -/
def scriptDigits : List (Nat × Nat) :=
  [(0xB2, 0xB3), (0xB9, 0xB9), (0x2070, 0x2070), (0x2074, 0x207E), (0x2080, 0x208E)]

/-- Characters of formulas that are not mathematical symbols. -/
def otherMath : RunTable :=
  .ofLines
    ["94-1+881-3+2-1+26-2+2-2+7200-1+27-3+11-1+32-4+24-2+14-2+65-13+4-1+3-2+4-5+18-1+4-1+2-10+1-",
     "1+3-5+6-1+3-2+2-2+1-3+1-6+3-4+5-5+75-5+2-4+1-2+1-2+1-1+1-5+2-2+4-2+4-18+2-2+1-1+1-7+1-1+6-",
     "2+290-4+168-2+1-1+24-1+17-1+445-2+12-9+5-5+5-2+2-2+3-5+14-1+1-1+2-6+24-2+57-1+1-1+29-4+9-2",
     "+342-2+31-10+403-22+63-4+32-2+54371-1+1-1+4-1+211-1+1-1+54465-85+1-71+1-2+2-1+2-2+2-4+1-12",
     "+1-1+1-7+1-65+1-4+2-8+1-7+1-28+1-4+1-5+1-1+3-7+1-340+2-25+1-25+1-31+1-25+1-31+1-25+1-31+1-",
     "25+1-31+1-25+1-8+2-50+5632-4+1-27+1-2+1-1+2-1+1-10+1-4+1-1+1-1+6-1+4-1+1-1+1-1+1-3+1-2+1-1",
     "+2-1+1-1+1-1+1-1+1-1+1-2+1-1+2-4+1-7+1-4+1-4+1-1+1-10+1-17+5-3+1-5+1-17+1-"]

/-! ## Characters without a form of their own -/

/-- Signs that are written before the digits they enclose. -/
def prependedMarks : List (Nat × Nat) :=
  [(0x600, 0x605), (0x6DD, 0x6DD), (0x70F, 0x70F), (0x890, 0x891), (0x8E2, 0x8E2),
   (0x110BD, 0x110BD), (0x110CD, 0x110CD)]

/-- Characters that choose between the forms of the one before them. -/
def variationSelectors : List (Nat × Nat) :=
  [(0x180B, 0x180D), (0x180F, 0x180F), (0xFE00, 0xFE0F), (0xE0100, 0xE01EF)]

/-- Letters without a form, and code points that are kept for characters without one. -/
def otherIgnorable : List (Nat × Nat) :=
  [(0x34F, 0x34F), (0x115F, 0x1160), (0x17B4, 0x17B5), (0x2065, 0x2065), (0x3164, 0x3164),
   (0xFFA0, 0xFFA0), (0xFFF0, 0xFFF8), (0xE0000, 0xE0000), (0xE0002, 0xE001F), (0xE0080, 0xE00FF),
   (0xE01F0, 0xE0FFF)]

/-- A character that is not shown where it is not known. Signs that enclose or annotate others are
    shown, though they belong to the formats. -/
def isIgnorable (c : Char) : Bool :=
  among otherIgnorable c || among variationSelectors c
    || Category.of c == .format && !among prependedMarks c
      && !among [(0xFFF9, 0xFFFB), (0x13430, 0x1343F)] c

/-- A code point that is never a character: the last two of each plane and some between. -/
def isNoncharacter (c : Char) : Bool :=
  0xFFFE ≤ c.toNat % 0x10000 || among [(0xFDD0, 0xFDEF)] c

/-- A character that begins what is shown as one. -/
def isGraphemeBase (c : Char) : Bool :=
  let category := Category.of c
  !extendsGrapheme c && category.group != 'C'
    && category != .lineSeparator && category != .paragraphSeparator

/-! ## Emoji -/

/-- Characters that may be shown as emoji. -/
def emoji : RunTable :=
  .ofLines
    ["35-1+6-1+5-10+111-1+4-1+8077-1+12-1+216-1+22-1+90-6+15-2+367-2+12-1+166-1+25-11+4-3+199-1+",
     "231-2+10-1+9-1+58-4+1-5+9-1+2-1+2-2+2-1+4-1+2-1+1-2+2-1+3-1+3-2+8-3+5-1+1-1+5-12+11-2+2-1+",
     "1-2+1-1+18-1+2-2+18-6+1-1+1-2+3-2+5-1+2-2+4-2+11-2+5-2+2-1+5-2+1-1+1-2+20-2+5-6+1-4+2-1+4-",
     "1+2-1+2-6+1-1+2-1+1-1+1-1+6-1+3-1+6-1+10-2+15-1+2-1+4-1+1-1+4-3+1-1+11-2+48-3+9-1+14-1+14-",
     "1+372-2+463-3+19-2+51-1+4-1+1242-1+12-1+601-1+1-1+114026-1+202-1+160-2+12-2+14-1+2-10+75-2",
     "6+1-2+23-1+20-1+2-9+21-2+174-34+2-112+2-2+1-3+2-83+2-3+1-263+1-63+11-6+1-24+7-2+2-8+12-1+2",
     "-4+2-1+4-2+13-2+2-1+8-2+9-1+5-3+12-3+8-3+2-1+1-1+4-1+6-1+3-1+6-86+48-70+5-8+2-3+4-10+3-1+1",
     "-2+3-1+2-10+227-12+4-1+283-47+1-10+1-185+112-13+3-10+5-56+7-15+2-11+6-9+1-"]

/-- Characters that are shown as emoji by themselves. -/
def emojiPresentation : RunTable :=
  .ofLines
    ["8986-2+205-4+3-1+2-1+521-2+21-2+50-12+43-1+19-1+13-1+8-2+17-2+5-2+8-1+5-1+21-1+7-2+1-1+4-1",
     "+2-1+7-1+4-2+28-1+35-1+1-1+4-3+1-1+61-3+24-1+14-1+859-2+51-1+4-1+115886-1+202-1+190-1+2-10",
     "+75-26+1-1+24-1+20-1+2-5+1-3+21-2+174-33+12-9+1-70+1-22+12-43+4-5+12-17+3-1+3-71+1-1+1-187",
     "+2-63+13-4+1-24+18-1+26-2+13-1+86-85+48-70+6-1+3-3+2-3+4-4+11-2+7-9+227-12+4-1+283-47+1-10",
     "+1-185+112-13+3-10+5-56+7-15+2-11+6-9+1-"]

/-- Emoji that a modifier of the skin may follow. -/
def emojiModifierBase : RunTable :=
  .ofLines
    ["9757-1+219-1+16-4+117879-1+60-3+2-1+2-3+117-2+2-11+21-19+3-1+4-3+1-3+7-1+1-1+24-1+201-2+4-",
     "1+21-1+4-2+174-3+3-5+83-1+16-3+9-1+11-1+575-1+2-1+8-8+6-1+9-10+2-3+56-1+61-2+1-2+1-1+17-3+",
     "1-13+229-3+42-9+1-"]

/-- Pictographs, and code points that are kept for some. -/
def pictographs : RunTable :=
  .ofLines
    ["169-1+4-1+8077-1+12-1+216-1+22-1+90-6+15-2+367-2+12-1+95-1+70-1+25-11+4-3+199-1+231-2+10-1",
     "+9-1+58-4+1-6+1-12+1-114+10-118+2-11+1-1+1-1+6-1+3-1+6-1+10-2+15-1+2-1+4-1+1-1+4-3+1-1+11-",
     "5+45-3+9-1+14-1+14-1+372-2+463-3+19-2+51-1+4-1+1242-1+12-1+601-1+1-1+114022-256+13-3+31-1+",
     "60-6+12-2+14-1+2-10+18-57+27-15+10-1+20-1+2-9+1-4+9-434+5-318+8-266+48-128+116-12+85-43+12",
     "-4+56-8+10-6+40-8+30-82+12-47+1-10+1-441+256-1022+1-"]

/-- The modifiers of the skin. -/
def emojiModifiers : List (Nat × Nat) :=
  [(0x1F3FB, 0x1F3FF)]

/-- The letters of the codes of countries, which are put together to flags. -/
def regionalIndicators : List (Nat × Nat) :=
  [(0x1F1E6, 0x1F1FF)]

/-! ## Scripts and punctuation -/

/-- Characters that are turned round in text from right to left. -/
def mirrored : RunTable :=
  .ofLines
    ["40-2+18-1+1-1+28-1+1-1+29-1+1-1+45-1+15-1+3710-4+1885-2+2460-2+10-2+54-2+14-2+177-1+192-4+",
     "3-6+3-1+3-2+3-4+1-4+1-1+1-1+4-9+5-1+1-18+5-4+9-2+1-1+1-8+1-32+2-4+5-1+9-2+2-19+5-2+9-5+2-2",
     "+4-24+2-16+8-4+20-2+7-2+1085-14+74-1+2-4+1-2+1-3+5-4+5-3+3-14+403-22+2-6+1-14+8-1+7-6+3-1+",
     "4-5+1-2+2-5+4-1+1-3+2-2+10-6+2-2+12-19+1-4+2-1+1-1+2-1+1-4+5-2+6-3+24-2+11-2+4-4+1-2+2-2+4",
     "-43+2-8+1-40+5-1+1-1+3-5+5-3+4-1+3-5+1-1+256-1+515-4+3-2+1-2+14-2+2-10+43-8+427-10+2-8+527",
     "97-6+5-2+162-2+18-1+1-1+28-1+1-1+29-1+1-1+1-2+1-2+55159-1+57-1+57-1+57-1+57-1+1-"]

/-- Dashes and hyphens. -/
def dashes : RunTable :=
  .ofLines
    ["45-1+1372-1+51-1+3649-1+1029-1+2057-6+61-1+39-1+15-1+390-1+3076-1+2-1+31-2+4-1+28-1+446-1+",
     "19-1+111-1+52624-2+37-1+10-1+169-1+3680-1+318-1+1-"]

/-- Marks and letters that change the value of another character. -/
def diacritics : RunTable :=
  .ofLines
    ["94-1+1-1+71-1+6-1+4-1+2-2+503-159+1-8+5-6+17-2+4-1+9-2+253-5+209-1+55-17+1-27+1-1+1-2+1-1+",
     "134-8+4-2+134-2+4-2+3-3+67-27+91-11+58-11+34-2+126-8+41-10+16-28+61-1+16-1+3-4+28-1+74-1+1",
     "6-1+110-1+16-1+110-1+16-1+47-3+60-1+16-1+7-1+119-1+110-1+16-1+110-1+16-1+109-2+16-1+124-1+",
     "111-1+12-6+1-1+107-1+13-5+75-2+27-1+1-1+1-1+4-2+66-3+1-2+62-1+112-1+1-2+40-2+4-5+25-7+1-1+",
     "10-2+705-3+948-2+30-1+148-11+9-1+347-3+292-1+20-8+2-1+48-15+2-11+104-1+15-1+38-9+54-2+58-1",
     "+11-2+66-2+64-6+82-25+4-1+6-1+2-3+50-63+89-12+37-11+445-1+1-3+11-3+13-3+13-3+13-2+3312-3+3",
     "17-1+506-6+105-4+95-1+30066-1+12-2+1-1+28-2+82-2+14-34+102-3+109-2+12-1+37-1+151-1+27-18+5",
     "7-4+36-1+95-1+12-1+36-1+149-3+65-4+51-1+100-5+9-3+128-2+20272-1+769-16+270-1+1-1+47-1+45-2",
     "+67-1+764-1+1183-6+1-42+1-9+637-3+4-1+165-2+571-6+38-1+26-5+399-3+70-11+49-4+192-1+41-1+72",
     "-2+120-2+62-1+76-1+9-3+104-2+178-2+80-2+16-1+24-7+3-5+89-3+1-2+13-2+95-1+3-1+123-2+251-2+1",
     "26-1+118-2+115-1+269-2+258-2+4-1+156-1+83-1+18-1+81-1+421-1+258-1+1-2+81-1+425-2+23-1+5356",
     "-15+11481-1+2496-5+59-7+564-2+546-17+80-2+16382-4+1-7+1-2+7937-46+2-23+544-3+3-6+8-8+2-7+3",
     "0-4+3714-62+194-7+375-1+61-4+766-2+736-7+109-3+1-3+1-"]

/-- Characters that repeat or lengthen the one before them. -/
def extenders : RunTable :=
  .ofLines
    ["183-1+536-2+878-1+441-1+630-1+137-1+89-1+752-1+127-1+2371-1+56-1+611-1+398-1+68-1+5001-1+4",
     "3-5+103-2+93-3+28438-1+1526-1+962-1+22-1+137-1+108-1+21-2+21627-1+2064-2+1483-1+27-1+4-1+1",
     "223-1+293-1+116-2+498-3+1231-1+20649-2+1180-2+1-1+29016-2+1201-1+852-3+1-"]

/-- Marks that join two consonants. -/
def links : RunTable :=
  .ofLines
    ["2381-1+127-1+127-1+127-1+127-1+127-1+127-1+127-1+109-2+16-1+124-1+111-1+127-1+201-1+180-2+",
     "1753-2+30-1+157-1+653-1+227-1+101-2+70-2+4491-1+31366-1+37-1+151-1+142-1+108-1+309-1+246-1",
     "+24145-1+1542-1+41-1+14-1+57-1+121-2+139-1+116-1+180-1+98-1+128-3+113-1+127-1+252-1+127-1+",
     "118-1+116-1+269-1+259-2+161-1+83-1+18-1+81-1+421-1+260-2+81-1+425-2+16876-1+1-"]

/-- Punctuation at the end of a sentence. -/
def sentenceTerminals : RunTable :=
  .ofLines
    ["33-1+12-1+16-1+1353-1+147-3+180-1+43-3+246-1+61-1+1-1+3-2+293-2+1764-2+790-1+4-2+773-1+198",
     "-2+157-2+45-1+5-1+314-2+354-4+162-2+10-2+2-2+29-3+187-2+65-2+932-1+23-2+9-3+3247-3+306-1+1",
     "3-1+22-2+429-1+29948-1+270-2+227-1+3-1+382-2+86-2+95-1+152-2+147-3+144-2+249-1+21030-1+2-2",
     "+59-1+3-2+169-1+12-1+16-1+65-1+2804-2+1277-5+44-4+189-2+117-4+127-3+129-2+6-1+16-2+88-2+1-",
     "2+108-1+298-2+117-2+373-2+5-15+105-2+249-3+517-1+1-1+251-2+87-2+420-2+692-2+74-2+19241-2+1",
     "33-1+65-2+11-1+553-2+296-1+19974-1+7656-1+1-"]

/-- Letters whose dot goes when a mark is put on them. -/
def softDotted : RunTable :=
  .ofLines
    ["105-2+196-1+281-1+30-1+52-1+20-1+320-1+98-1+1-1+6409-1+51-1+13-1+3-1+132-1+157-1+421-1+214",
     "-2+2866-1+108453-2+50-2+50-2+50-2+50-2+50-2+50-2+50-2+50-2+50-2+50-2+50-2+50-2+2182-1+305-",
     "2+26-1+1-"]

/-- Punctuation at the end of a part of a text. -/
def terminals : RunTable :=
  .ofLines
    ["33-1+10-1+1-1+11-2+3-1+830-1+8-1+513-1+57-1+72-1+14-1+1-3+180-1+43-11+1-1+235-2+54-6+1-8+3",
     "1-1+261-2+1268-2+172-1+4-6+311-2+789-8+773-1+124-3+71-2+157-3+3-1+39-4+2-2+314-2+354-4+162",
     "-2+10-2+1-3+29-3+187-5+62-2+932-1+23-2+9-3+3247-3+306-1+13-1+4-1+10-1+1-2+3-2+428-2+29947-",
     "2+269-3+227-5+382-2+86-2+95-1+151-3+147-3+127-1+16-2+249-1+21030-1+2-2+57-3+1-4+169-1+10-1",
     "+1-1+11-2+3-1+65-1+2-1+1082-1+48-1+1158-1+199-1+310-2+152-6+68-6+89-4+952-5+44-4+189-7+112",
     "-4+127-3+129-2+6-1+16-2+88-5+108-1+298-2+117-3+12-2+358-4+3-15+105-2+249-3+517-1+1-1+251-2",
     "+87-2+4-2+414-3+45-1+645-2+74-2+1323-5+17913-2+133-1+65-3+10-1+553-2+295-2+19974-1+7655-4+",
     "1-"]

/-- Ideographs of all scripts. -/
def ideographs : List (Nat × Nat) :=
  [(0x3006, 0x3007), (0x3021, 0x3029), (0x3038, 0x303A), (0x3400, 0x4DBF), (0x4E00, 0x9FFF),
   (0xF900, 0xFA6D), (0xFA70, 0xFAD9), (0x16FE4, 0x16FE4), (0x17000, 0x187F7), (0x18800, 0x18CD5),
   (0x18CFF, 0x18D08), (0x1B170, 0x1B2FB), (0x20000, 0x2A6DF), (0x2A700, 0x2B739),
   (0x2B740, 0x2B81D), (0x2B820, 0x2CEA1), (0x2CEB0, 0x2EBE0), (0x2EBF0, 0x2EE5D),
   (0x2F800, 0x2FA1D), (0x30000, 0x3134A), (0x31350, 0x323AF)]

/-- The ideographs that are common to Chinese, Japanese and Korean. -/
def unifiedIdeographs : List (Nat × Nat) :=
  [(0x3400, 0x4DBF), (0x4E00, 0x9FFF), (0xFA0E, 0xFA0F), (0xFA11, 0xFA11), (0xFA13, 0xFA14),
   (0xFA1F, 0xFA1F), (0xFA21, 0xFA21), (0xFA23, 0xFA24), (0xFA27, 0xFA29), (0x20000, 0x2A6DF),
   (0x2A700, 0x2B739), (0x2B740, 0x2B81D), (0x2B820, 0x2CEA1), (0x2CEB0, 0x2EBE0),
   (0x2EBF0, 0x2EE5D), (0x30000, 0x3134A), (0x31350, 0x323AF)]

/-- The characters with each binary property. -/
def binaryProperties : List NamedSet :=
  [⟨["ahex", "asciihexdigit"], among [(0x30, 0x39), (0x41, 0x46), (0x61, 0x66)]⟩,
   ⟨["alpha", "alphabetic"], isAlphabetic⟩,
   ⟨["bidic", "bidicontrol"], among
      [(0x61C, 0x61C), (0x200E, 0x200F), (0x202A, 0x202E), (0x2066, 0x2069)]⟩,
   ⟨["bidim", "bidimirrored"], mirrored.has⟩,
   ⟨["cased"], isCased⟩,
   ⟨["ci", "caseignorable"], isCaseIgnorable⟩,
   ⟨["cwcf", "changeswhencasefolded"], changesWhenCasefolded⟩,
   ⟨["cwcm", "changeswhencasemapped"], fun c =>
     changesWhenLowercased c || changesWhenUppercased c || changesWhenTitlecased c⟩,
   ⟨["cwl", "changeswhenlowercased"], changesWhenLowercased⟩,
   ⟨["cwt", "changeswhentitlecased"], changesWhenTitlecased⟩,
   ⟨["cwu", "changeswhenuppercased"], changesWhenUppercased⟩,
   ⟨["dash"], dashes.has⟩,
   ⟨["dep", "deprecated"], among
      [(0x149, 0x149), (0x673, 0x673), (0xF77, 0xF77), (0xF79, 0xF79), (0x17A3, 0x17A4),
       (0x206A, 0x206F), (0x2329, 0x232A), (0xE0001, 0xE0001)]⟩,
   ⟨["di", "defaultignorablecodepoint"], isIgnorable⟩,
   ⟨["dia", "diacritic"], diacritics.has⟩,
   ⟨["ebase", "emojimodifierbase"], emojiModifierBase.has⟩,
   ⟨["ecomp", "emojicomponent"], among
      [(0x23, 0x23), (0x2A, 0x2A), (0x30, 0x39), (0x200D, 0x200D), (0x20E3, 0x20E3),
       (0xFE0F, 0xFE0F), (0x1F1E6, 0x1F1FF), (0x1F3FB, 0x1F3FF), (0x1F9B0, 0x1F9B3),
       (0xE0020, 0xE007F)]⟩,
   ⟨["emod", "emojimodifier"], among emojiModifiers⟩,
   ⟨["emoji"], emoji.has⟩,
   ⟨["epres", "emojipresentation"], emojiPresentation.has⟩,
   ⟨["ext", "extender"], extenders.has⟩,
   ⟨["extpict", "extendedpictographic"], pictographs.has⟩,
   ⟨["grbase", "graphemebase"], isGraphemeBase⟩,
   ⟨["grext", "graphemeextend"], extendsGrapheme⟩,
   ⟨["grlink", "graphemelink"], links.has⟩,
   ⟨["hex", "hexdigit"], among
      [(0x30, 0x39), (0x41, 0x46), (0x61, 0x66), (0xFF10, 0xFF19), (0xFF21, 0xFF26),
       (0xFF41, 0xFF46)]⟩,
   ⟨["hyphen"], among
      [(0x2D, 0x2D), (0xAD, 0xAD), (0x58A, 0x58A), (0x1806, 0x1806), (0x2010, 0x2011),
       (0x2E17, 0x2E17), (0x30FB, 0x30FB), (0xFE63, 0xFE63), (0xFF0D, 0xFF0D), (0xFF65, 0xFF65)]⟩,
   ⟨["idc", "idcontinue"], continuesIdentifier⟩,
   ⟨["idcompatmathcontinue"], among (nabla ++ scriptDigits)⟩,
   ⟨["idcompatmathstart"], among nabla⟩,
   ⟨["ideo", "ideographic"], among ideographs⟩,
   ⟨["ids", "idstart"], startsIdentifier⟩,
   ⟨["idsb", "idsbinaryoperator"], among [(0x2FF0, 0x2FF1), (0x2FF4, 0x2FFD), (0x31EF, 0x31EF)]⟩,
   ⟨["idst", "idstrinaryoperator"], among [(0x2FF2, 0x2FF3)]⟩,
   ⟨["idsu", "idsunaryoperator"], among [(0x2FFE, 0x2FFF)]⟩,
   ⟨["joinc", "joincontrol"], among [(0x200C, 0x200D)]⟩,
   ⟨["loe", "logicalorderexception"], among
      [(0xE40, 0xE44), (0xEC0, 0xEC4), (0x19B5, 0x19B7), (0x19BA, 0x19BA), (0xAAB5, 0xAAB6),
       (0xAAB9, 0xAAB9), (0xAABB, 0xAABC)]⟩,
   ⟨["lower", "lowercase"], isLowercase⟩,
   ⟨["math"], fun c => Category.of c == .mathSymbol || otherMath.has c⟩,
   ⟨["mcm", "modifiercombiningmark"], among
      [(0x654, 0x655), (0x658, 0x658), (0x6DC, 0x6DC), (0x6E3, 0x6E3), (0x6E7, 0x6E8),
       (0x8CA, 0x8CB), (0x8CD, 0x8CF), (0x8D3, 0x8D3), (0x8F3, 0x8F3)]⟩,
   ⟨["nchar", "noncharactercodepoint"], isNoncharacter⟩,
   ⟨["oalpha", "otheralphabetic"], otherAlphabetic.has⟩,
   ⟨["odi", "otherdefaultignorablecodepoint"], among otherIgnorable⟩,
   ⟨["ogrext", "othergraphemeextend"], among otherGraphemeExtend⟩,
   ⟨["oidc", "otheridcontinue"], among otherIdContinue⟩,
   ⟨["oids", "otheridstart"], among otherIdStart⟩,
   ⟨["olower", "otherlowercase"], otherLowercase.has⟩,
   ⟨["omath", "othermath"], otherMath.has⟩,
   ⟨["oupper", "otheruppercase"], among otherUppercase⟩,
   ⟨["patsyn", "patternsyntax"], patternSyntax.has⟩,
   ⟨["patws", "patternwhitespace"], among patternBlanks⟩,
   ⟨["pcm", "prependedconcatenationmark"], among prependedMarks⟩,
   ⟨["qmark", "quotationmark"], among
      [(0x22, 0x22), (0x27, 0x27), (0xAB, 0xAB), (0xBB, 0xBB), (0x2018, 0x201F), (0x2039, 0x203A),
       (0x2E42, 0x2E42), (0x300C, 0x300F), (0x301D, 0x301F), (0xFE41, 0xFE44), (0xFF02, 0xFF02),
       (0xFF07, 0xFF07), (0xFF62, 0xFF63)]⟩,
   ⟨["radical"], among [(0x2E80, 0x2E99), (0x2E9B, 0x2EF3), (0x2F00, 0x2FD5)]⟩,
   ⟨["ri", "regionalindicator"], among regionalIndicators⟩,
   ⟨["sd", "softdotted"], softDotted.has⟩,
   ⟨["space", "wspace", "whitespace"], Text.isBlankChar⟩,
   ⟨["sterm", "sentenceterminal"], sentenceTerminals.has⟩,
   ⟨["term", "terminalpunctuation"], terminals.has⟩,
   ⟨["uideo", "unifiedideograph"], among unifiedIdeographs⟩,
   ⟨["upper", "uppercase"], isUppercase⟩,
   ⟨["vs", "variationselector"], among variationSelectors⟩,
   ⟨["xidc", "xidcontinue"], fun c => continuesIdentifier c && !among decomposedInNames c⟩,
   ⟨["xids", "xidstart"], fun c =>
     startsIdentifier c && !among decomposedInNames c && !among decomposedAtStart c⟩]

end Versioning.Unicode
