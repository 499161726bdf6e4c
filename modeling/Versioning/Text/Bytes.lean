/-!
# Bytes of text

The bytes that a text is written with, and the classes of bytes that patterns of paths know by
name. Only bytes below 128 belong to a class.
-/

namespace Versioning.Text

/-- The bytes that a text is written with. -/
def bytes (text : String) : List UInt8 :=
  text.toUTF8.data.toList

/-- Whether a byte is a space, a tab or a line break. -/
def isBlankByte (b : UInt8) : Bool :=
  b == ' '.toUInt8 || (9 ≤ b && b ≤ 13)

/-- A range of bytes, by the first and the last one. -/
abbrev ByteRange :=
  UInt8 × UInt8

/-- Whether a byte lies in a range. -/
def ByteRange.contains (range : ByteRange) (b : UInt8) : Bool :=
  range.1 ≤ b && b ≤ range.2

/-- The range of the bytes from one character to another one. -/
def ByteRange.ofChars (first last : Char) : ByteRange :=
  (first.toUInt8, last.toUInt8)

/-- The bytes of a class, by its name. -/
def byteClass? (name : List UInt8) : Option (List ByteRange) :=
  let digits : ByteRange := .ofChars '0' '9'
  let upper : ByteRange := .ofChars 'A' 'Z'
  let lower : ByteRange := .ofChars 'a' 'z'
  let classes : List (String × List ByteRange) :=
    [("alnum", [digits, upper, lower]), ("alpha", [upper, lower]),
      ("blank", [.ofChars ' ' ' ', .ofChars '\t' '\t']), ("cntrl", [(0, 31), (127, 127)]),
      ("digit", [digits]), ("graph", [(33, 126)]), ("lower", [lower]), ("print", [(32, 126)]),
      ("punct", [(33, 47), (58, 64), (91, 96), (123, 126)]),
      ("space", [.ofChars ' ' ' ', (9, 13)]), ("upper", [upper]),
      ("xdigit", [digits, .ofChars 'A' 'F', .ofChars 'a' 'f'])]
  (classes.find? fun c => bytes c.1 == name).map (·.2)

end Versioning.Text
