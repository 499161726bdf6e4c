import Versioning.Text.Hexadecimal
import Versioning.Unicode.Property

/-!
# Quoted text

Text is shown between double quotes when a message lists several pieces of it.
Quotes and backslashes are preceded by a backslash, the common control
characters have a letter of their own, and every other character that would not
be seen on its own is written by the hexadecimal digits of its code point.
-/

namespace Versioning.Text

/-- A character inside double quotes. -/
def quotedChar (c : Char) : List Char :=
  if c = '"' then ['\\', '"']
  else if c = '\\' then ['\\', '\\']
  else if c = '\n' then ['\\', 'n']
  else if c = '\r' then ['\\', 'r']
  else if c = '\t' then ['\\', 't']
  else if c = '\x00' then ['\\', '0']
  else if Unicode.extendsGrapheme c || !Unicode.isPrintable c then
    ['\\', 'u', '\x7b'] ++ hexDigits c.toNat ++ ['\x7d']
  else [c]

/-- A text between double quotes. -/
def quoted (text : String) : String :=
  String.ofList (['"'] ++ text.toList.flatMap quotedChar ++ ['"'])

/-- The quoted texts between brackets, separated by commas. -/
def quotedList (texts : List String) : String :=
  "[" ++ ", ".intercalate (texts.map quoted) ++ "]"

end Versioning.Text
