import Versioning.Unicode.Category
import Versioning.Text.Blank

/-!
# Character properties

Properties of characters that patterns, group names and quoted text ask for.
Each one is the union of some general categories and of a short list of
further code points. Characters below 128 are decided without the table.
-/

namespace Versioning.Unicode

/-- Whether a code point lies in one of the ranges (ends included). -/
def inRanges (ranges : List (Nat × Nat)) (code : Nat) : Bool :=
  ranges.any fun (first, last) => first ≤ code && code ≤ last

/-- Marks and symbols that count as alphabetic although no letters. -/
def otherAlphabetic : RunTable :=
  .ofLines
    ["837-1+29-13+576-14+1-1+1-2+1-2+1-1+72-11+48-13+1-7+16-1+101-7+4-4+2-2+4-1+35-1+30-16+102-1",
     "1+101-2+3-9+1-3+1-4+106-1+60-12+3-7+6-20+54-2+2-15+1-2+5-3+10-2+29-3+58-7+2-2+2-2+10-1+10-",
     "2+29-3+58-5+4-2+2-2+4-1+30-2+3-1+11-3+58-8+1-3+1-2+21-2+22-3+4-3+58-7+2-2+2-2+9-2+10-2+30-",
     "1+59-5+3-3+1-3+10-1+40-5+57-7+1-3+1-3+8-2+11-2+29-3+58-7+1-3+1-3+8-2+11-2+15-1+12-4+58-7+1",
     "-3+1-3+10-1+10-2+29-3+75-6+1-1+1-8+18-2+61-1+2-7+18-1+99-1+2-6+1-2+16-1+163-19+9-11+1-36+1",
     "10-12+1-1+2-4+23-4+4-3+1-3+2-7+3-4+13-12+1-1+10-4+1652-2+30-2+30-2+30-2+66-19+188-2+34-1+1",
     "18-12+4-9+222-5+57-10+2-20+74-2+11-3+49-5+48-15+60-3+30-9+2-2+57-11+50-19+412-34+1729-52+2",
     "294-32+30836-8+34-2+354-1+8-1+23-5+88-2+50-16+1-1+57-1+38-5+28-12+45-4+48-12+37-1+67-14+12",
     "-1+8-2+45-3+50-1+1-3+2-2+5-1+44-5+5-1+237-8+20275-1+2135-5+1670-3+1-2+5-4+788-4+65-1+321-2",
     "+79-1+259-3+53-14+45-2+11-3+45-9+9-1+61-3+36-12+18-2+57-3+48-13+14-2+92-9+2-1+6-1+2-1+157-",
     "10+23-4+58-7+2-2+2-2+10-1+10-2+84-9+1-1+2-1+1-4+1-2+103-13+1-3+106-18+237-7+2-7+29-2+82-15",
     "+1-1+106-11+103-14+257-13+247-6+1-2+2-2+3-1+1-1+142-7+2-6+4-1+28-10+42-5+1-4+18-11+46-14+4",
     "07-8+1-7+83-22+1-14+122-6+3-1+1-2+1-3+1-1+3-1+66-5+1-2+1-4+348-4+9-2+1-1+48-7+3-3+16861-17",
     "+3616-1+1-55+7-4+93-2+19628-1+9057-7+1-17+2-7+1-2+1-5+100-1+2231-1+2024-26+6-26+6-26+1-"]

/-- Characters that extend the one before them although no nonspacing or enclosing marks. -/
def otherGraphemeExtend : List (Nat × Nat) :=
  [(0x9BE, 0x9BE), (0x9D7, 0x9D7), (0xB3E, 0xB3E), (0xB57, 0xB57), (0xBBE, 0xBBE), (0xBD7, 0xBD7),
   (0xCC0, 0xCC0), (0xCC2, 0xCC2), (0xCC7, 0xCC8), (0xCCA, 0xCCB), (0xCD5, 0xCD6), (0xD3E, 0xD3E),
   (0xD57, 0xD57), (0xDCF, 0xDCF), (0xDDF, 0xDDF), (0x1715, 0x1715), (0x1734, 0x1734),
   (0x1B35, 0x1B35), (0x1B3B, 0x1B3B), (0x1B3D, 0x1B3D), (0x1B43, 0x1B44), (0x1BAA, 0x1BAA),
   (0x1BF2, 0x1BF3), (0x200C, 0x200C), (0x302E, 0x302F), (0xA953, 0xA953), (0xA9C0, 0xA9C0),
   (0xFF9E, 0xFF9F), (0x111C0, 0x111C0), (0x11235, 0x11235), (0x1133E, 0x1133E), (0x1134D, 0x1134D),
   (0x11357, 0x11357), (0x113B8, 0x113B8), (0x113C2, 0x113C2), (0x113C5, 0x113C5),
   (0x113C7, 0x113C9), (0x113CF, 0x113CF), (0x114B0, 0x114B0), (0x114BD, 0x114BD),
   (0x115AF, 0x115AF), (0x116B6, 0x116B6), (0x11930, 0x11930), (0x1193D, 0x1193D),
   (0x11F41, 0x11F41), (0x16FF0, 0x16FF1), (0x1D165, 0x1D166), (0x1D16D, 0x1D172),
   (0xE0020, 0xE007F)]

/-- A letter, or a mark that is used like one. -/
def isAlphabetic (c : Char) : Bool :=
  if c.toNat < 128 then c.isAlpha
  else
    let category := Category.of c
    category.group == 'L' || category == .letterNumber || otherAlphabetic.has c

/-- A digit or another number. -/
def isNumeric (c : Char) : Bool :=
  if c.toNat < 128 then c.isDigit else (Category.of c).group == 'N'

/-- A decimal digit of any script. -/
def isDecimalDigit (c : Char) : Bool :=
  if c.toNat < 128 then c.isDigit else Category.of c == .decimalNumber

/-- A character that can be part of a word: alphabetic characters, marks, decimal digits,
    connecting punctuation and the two characters that join or separate letters. -/
def isWordCharacter (c : Char) : Bool :=
  if c.toNat < 128 then c.isAlphanum || c == '_'
  else
    let category := Category.of c
    isAlphabetic c || category.group == 'M' || category == .decimalNumber
      || category == .connectorPunctuation || c.toNat == 0x200C || c.toNat == 0x200D

/-- A character that is shown together with the one before it. -/
def extendsGrapheme (c : Char) : Bool :=
  if c.toNat < 128 then false
  else
    let category := Category.of c
    category == .nonspacingMark || category == .enclosingMark
      || inRanges otherGraphemeExtend c.toNat

/-- A character that has a visible form of its own, or is the space. -/
def isPrintable (c : Char) : Bool :=
  if c.toNat < 128 then 32 ≤ c.toNat && c.toNat < 127
  else
    let category := Category.of c
    category.group != 'C' && category.group != 'Z'

end Versioning.Unicode
