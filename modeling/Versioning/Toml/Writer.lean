import Versioning.Toml.Text
import Versioning.Toml.Reader

/-!
# Writing documents

A document of tables of strings is written with a header per table and a line per
key. A key stands bare where it can. Strings take the plainest of the ways to write
them that needs no escapes, and the double quotes with escapes if none does; one
with line breaks is written on several lines if it can be.

* `writtenKey` and `writtenString` choose the way of writing;
* `writtenDocument` is the whole text.
-/

namespace Versioning.Toml

/-- A control character other than tab and line feed. -/
def isControl (c : Char) : Bool :=
  (c.toNat < 0x20 && c != '\t' && c != '\n') || c.toNat == 0x7F

/-- Four hexadecimal digits in upper case. -/
def fourHexDigits (n : Nat) : List Char :=
  let digits := (Nat.toDigits 16 n).map Char.toUpper
  List.replicate (4 - digits.length) '0' ++ digits

/-- A character between double quotes on one line. -/
def escapedChar (c : Char) : List Char :=
  if c = '\x08' then ['\\', 'b']
  else if c = '\t' then ['\\', 't']
  else if c = '\n' then ['\\', 'n']
  else if c = '\x0c' then ['\\', 'f']
  else if c = '\r' then ['\\', 'r']
  else if c = '"' then ['\\', '"']
  else if c = '\\' then ['\\', '\\']
  else if isControl c then '\\' :: 'u' :: fourHexDigits c.toNat
  else [c]

/-- Text between triple double quotes: line feeds stand for themselves, and quotes too as long as
    there are no three of them together; `quotes` of them came just before. -/
def escapedLines : (quotes : Nat) → List Char → List Char
  | _, [] => []
  | quotes, c :: rest =>
    if c = '"' then
      if quotes < 2 then '"' :: escapedLines (quotes + 1) rest
      else '\\' :: '"' :: escapedLines 0 rest
    else if c = '\n' then '\n' :: escapedLines 0 rest
    else escapedChar c ++ escapedLines 0 rest

/-- The greatest number of quotes in a row; `run` of them came just before. -/
def longestRun (quote : Char) : (run : Nat) → List Char → Nat
  | run, [] => run
  | run, c :: rest =>
    if c = quote then longestRun quote (run + 1) rest
    else Nat.max run (longestRun quote 0 rest)

/-- The ways of writing a string. -/
inductive Style where
  | basic | literal | multilineBasic | multilineLiteral
  deriving DecidableEq, Repr

/-- The delimiter of a way of writing. -/
def Style.delimiter : Style → List Char
  | basic => ['"']
  | literal => ['\'']
  | multilineBasic => ['"', '"', '"']
  | multilineLiteral => ['\'', '\'', '\'']

/-- The way to write a string value. -/
def styleOf (text : List Char) : Style :=
  let control := text.any isControl
  let newline := text.contains '\n'
  let backslash := text.contains '\\'
  if !control && !backslash && !newline && !text.contains '"' then .basic
  else if !control && !newline && !text.contains '\'' then .literal
  else if !control && !backslash && longestRun '"' 0 text ≤ 2 then .multilineBasic
  else if !control && longestRun '\'' 0 text ≤ 2 then .multilineLiteral
  else if newline then .multilineBasic
  else .basic

/-- A string written in a given way. A string on several lines begins with a line break that does
    not count. -/
def writtenAs (style : Style) (text : List Char) : List Char :=
  let body := match style with
    | .basic => text.flatMap escapedChar
    | .literal => text
    | .multilineBasic => (if text.contains '\n' then ['\n'] else []) ++ escapedLines 0 text
    | .multilineLiteral => (if text.contains '\n' then ['\n'] else []) ++ text
  style.delimiter ++ body ++ style.delimiter

/-- A string value. -/
def writtenString (text : List Char) : List Char :=
  writtenAs (styleOf text) text

/-- A key: bare if it can be, otherwise a string on one line. -/
def writtenKey (key : List Char) : List Char :=
  let control := key.any fun c => isControl c || c == '\n'
  if !key.isEmpty && key.all isBareKeyChar then key
  else if !control && !key.contains '"' && !key.contains '\\' then writtenAs .basic key
  else if !control && !key.contains '\'' then writtenAs .literal key
  else writtenAs .basic key

/-- A line that gives a key its value. -/
def writtenEntry (key value : String) : List Char :=
  writtenKey key.toList ++ [' ', '=', ' '] ++ writtenString value.toList ++ ['\n']

/-- A table with its header. -/
def writtenTable (name : String) (entries : List (String × String)) : List Char :=
  ['['] ++ writtenKey name.toList ++ [']', '\n'] ++ entries.flatMap fun (k, v) => writtenEntry k v

/-- The text of a document of tables, with a blank line between two of them. -/
def writtenDocument (tables : List (String × List (String × String))) : String :=
  String.ofList (List.intercalate ['\n'] (tables.map fun (name, entries) =>
    writtenTable name entries))

end Versioning.Toml
