import Versioning.Text.Hexadecimal
import Versioning.Toml.Fault

/-!
# Strings of a document

A string is written in one of four ways: between double quotes, with escapes, or
between single quotes, without; each on one line between single delimiters, or on
several between triple ones. A string of several lines may begin with a line break
that does not count, its line breaks are read as line feeds, and it may end in
one or two quotes of its own before the three that close it. A backslash at the
end of a line skips the line break and the blanks that follow.

Each reader takes the text after the opening delimiter and returns the string with
the text after the closing one.
-/

namespace Versioning.Toml

/-- A piece that was read and the text after it. -/
abbrev Step (α : Type) := Except Fault (α × List Char)

/-- Puts a character before the piece that is read next. -/
def Step.cons (c : Char) : Step (List Char) → Step (List Char)
  | .ok (text, rest) => .ok (c :: text, rest)
  | .error fault => .error fault

/-- A character that may stand for itself in a string or comment: a tab, or anything else but
    control characters. -/
def isPlainChar (c : Char) : Bool :=
  c == '\t' || (0x20 ≤ c.toNat && c.toNat != 0x7F)

/-- The character that has the given hexadecimal digits as its code point. -/
def hexChar? (digits : List Char) : Option Char := do
  let values ← digits.mapM Text.hexValue?
  let code := values.foldl (fun n d => 16 * n + d) 0
  if code.isValidChar then some (Char.ofNat code) else none

/-- The character that a letter after a backslash stands for. -/
def escapedChar? : Char → Option Char
  | 'b' => some '\x08'
  | 't' => some '\t'
  | 'n' => some '\n'
  | 'f' => some '\x0c'
  | 'r' => some '\r'
  | '"' => some '"'
  | '\\' => some '\\'
  | _ => none

/-- The rest of a string on one line between double quotes. -/
def basicString : List Char → Step (List Char)
  | [] => .error .string
  | '"' :: rest => .ok ([], rest)
  | '\\' :: 'u' :: a :: b :: c :: d :: rest =>
    match hexChar? [a, b, c, d] with
    | some x => (basicString rest).cons x
    | none => .error .string
  | '\\' :: 'U' :: a :: b :: c :: d :: e :: f :: g :: h :: rest =>
    match hexChar? [a, b, c, d, e, f, g, h] with
    | some x => (basicString rest).cons x
    | none => .error .string
  | '\\' :: c :: rest =>
    match escapedChar? c with
    | some x => (basicString rest).cons x
    | none => .error .string
  | c :: rest => if isPlainChar c && c != '\\' then (basicString rest).cons c else .error .string

/-- The rest of a string on one line between single quotes. -/
def literalString : List Char → Step (List Char)
  | [] => .error .string
  | '\'' :: rest => .ok ([], rest)
  | c :: rest => if isPlainChar c then (literalString rest).cons c else .error .string

/-- Where the reader stands in a string of several lines. -/
inductive LineState where
  /-- In the text. -/
  | inText
  /-- After a backslash and some blanks, before the end of the line. -/
  | beforeBreak
  /-- Among the blanks and line breaks that a backslash skips. -/
  | skipping
  deriving DecidableEq

/-- The rest of a string on several lines between double quotes. -/
def multilineBasic : LineState → List Char → Step (List Char)
  | _, [] => .error .string
  | .beforeBreak, ' ' :: rest => multilineBasic .beforeBreak rest
  | .beforeBreak, '\t' :: rest => multilineBasic .beforeBreak rest
  | .beforeBreak, '\n' :: rest => multilineBasic .skipping rest
  | .beforeBreak, '\r' :: '\n' :: rest => multilineBasic .skipping rest
  | .beforeBreak, _ :: _ => .error .string
  | .skipping, ' ' :: rest => multilineBasic .skipping rest
  | .skipping, '\t' :: rest => multilineBasic .skipping rest
  | .skipping, '\n' :: rest => multilineBasic .skipping rest
  | .skipping, '\r' :: '\n' :: rest => multilineBasic .skipping rest
  | _, '"' :: '"' :: '"' :: '"' :: '"' :: rest => .ok (['"', '"'], rest)
  | _, '"' :: '"' :: '"' :: '"' :: rest => .ok (['"'], rest)
  | _, '"' :: '"' :: '"' :: rest => .ok ([], rest)
  | _, '\n' :: rest => (multilineBasic .inText rest).cons '\n'
  | _, '\r' :: '\n' :: rest => (multilineBasic .inText rest).cons '\n'
  | _, '\\' :: ' ' :: rest => multilineBasic .beforeBreak rest
  | _, '\\' :: '\t' :: rest => multilineBasic .beforeBreak rest
  | _, '\\' :: '\n' :: rest => multilineBasic .skipping rest
  | _, '\\' :: '\r' :: '\n' :: rest => multilineBasic .skipping rest
  | _, '\\' :: 'u' :: a :: b :: c :: d :: rest =>
    match hexChar? [a, b, c, d] with
    | some x => (multilineBasic .inText rest).cons x
    | none => .error .string
  | _, '\\' :: 'U' :: a :: b :: c :: d :: e :: f :: g :: h :: rest =>
    match hexChar? [a, b, c, d, e, f, g, h] with
    | some x => (multilineBasic .inText rest).cons x
    | none => .error .string
  | _, '\\' :: c :: rest =>
    match escapedChar? c with
    | some x => (multilineBasic .inText rest).cons x
    | none => .error .string
  | _, c :: rest =>
    if isPlainChar c && c != '\\' then (multilineBasic .inText rest).cons c else .error .string

/-- The rest of a string on several lines between single quotes. -/
def multilineLiteral : List Char → Step (List Char)
  | [] => .error .string
  | '\'' :: '\'' :: '\'' :: '\'' :: '\'' :: rest => .ok (['\'', '\''], rest)
  | '\'' :: '\'' :: '\'' :: '\'' :: rest => .ok (['\''], rest)
  | '\'' :: '\'' :: '\'' :: rest => .ok ([], rest)
  | '\n' :: rest => (multilineLiteral rest).cons '\n'
  | '\r' :: '\n' :: rest => (multilineLiteral rest).cons '\n'
  | c :: rest => if isPlainChar c then (multilineLiteral rest).cons c else .error .string

/-- Skips the line break right after an opening delimiter of three quotes. -/
def skipFirstBreak : List Char → List Char
  | '\n' :: rest => rest
  | '\r' :: '\n' :: rest => rest
  | text => text

/-- A string in any of the four ways, from its opening quote. -/
def string : List Char → Step (List Char)
  | '"' :: '"' :: '"' :: rest => multilineBasic .inText (skipFirstBreak rest)
  | '\'' :: '\'' :: '\'' :: rest => multilineLiteral (skipFirstBreak rest)
  | '"' :: rest => basicString rest
  | '\'' :: rest => literalString rest
  | _ => .error .string

end Versioning.Toml
