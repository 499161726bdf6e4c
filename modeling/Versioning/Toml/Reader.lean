import Versioning.Toml.Number
import Versioning.Toml.Section

/-!
# Reading documents

A document is a sequence of lines: headers, keys with values, comments and blank
lines. `document` reads it into a table. The readers for values call each
other for the items of arrays and inline tables; the depth of the nesting is limited,
and `depth` is what is left of it.

* `keyPath` reads a key with dots, `value` a value;
* `line` reads a line into the sections of the document;
* `Table.ofText?` is the table that a whole text describes.
-/

namespace Versioning.Toml

/-- How deeply arrays and inline tables may be nested, and how many parts a key may have. -/
def nestingLimit : Nat := 79

/-! ## Space and comments -/

/-- Skips spaces and tabs. -/
def skipBlanks (text : List Char) : List Char :=
  text.dropWhile fun c => c == ' ' || c == '\t'

/-- The rest of a line from its comment on, which may hold no control characters but tabs. -/
def skipComment (text : List Char) : List Char :=
  match text with
  | '#' :: rest => rest.dropWhile isPlainChar
  | _ => text

/-- The text after a line break, if one comes next. -/
def lineBreak? : List Char → Option (List Char)
  | '\n' :: rest => some rest
  | '\r' :: '\n' :: rest => some rest
  | _ => none

/-- The end of a line after its contents: blanks, perhaps a comment, and a line break or the end
    of the text. -/
def endOfLine (text : List Char) : Except Fault (List Char) :=
  match skipComment (skipBlanks text) with
  | [] => .ok []
  | text =>
    match lineBreak? text with
    | some rest => .ok rest
    | none => .error .character

/-- Skips blanks, comments and line breaks, as they may stand between the items of an array. -/
def skipLines : (fuel : Nat) → List Char → List Char
  | 0, text => text
  | fuel + 1, text =>
    let text := skipBlanks text
    match lineBreak? text with
    | some rest => skipLines fuel rest
    | none =>
      match text with
      | '#' :: _ =>
        match lineBreak? (skipComment text) with
        | some rest => skipLines fuel rest
        | none => text
      | _ => text

/-! ## Keys -/

/-- A character of a key without quotes. -/
def isBareKeyChar (c : Char) : Bool :=
  c.isAlphanum || c == '-' || c == '_'

/-- A single key. -/
def simpleKey (text : List Char) : Step String :=
  match text with
  | '"' :: rest => (basicString rest).map fun (key, rest) => (String.ofList key, rest)
  | '\'' :: rest => (literalString rest).map fun (key, rest) => (String.ofList key, rest)
  | _ =>
    match text.takeWhile isBareKeyChar with
    | [] => .error .key
    | key => .ok (String.ofList key, text.dropWhile isBareKeyChar)

/-- A key with dots, with blanks around each of its parts. -/
def keyPath : (limit : Nat) → List Char → Except Fault (List String × List Char)
  | 0, _ => .error .nesting
  | limit + 1, text => do
    let (key, rest) ← simpleKey (skipBlanks text)
    match skipBlanks rest with
    | '.' :: rest =>
      let (path, rest) ← keyPath limit rest
      return (key :: path, rest)
    | rest => return ([key], rest)

/-- The part of a key before its last dot, and the part after it. -/
def splitPath (path : List String) : List String × String :=
  (path.dropLast, path.getLast?.getD "")

/-! ## Values -/

mutual

/-- A value. -/
def value (fuel depth : Nat) (text : List Char) : Except Fault (Value × List Char) :=
  match fuel with
  | 0 => .error .nesting
  | fuel + 1 =>
    match text with
    | '[' :: rest =>
      match depth with
      | 0 => .error .nesting
      | depth + 1 => (arrayItems fuel depth rest).map fun (items, rest) => (.array items, rest)
    | '\x7b' :: rest =>
      match depth with
      | 0 => .error .nesting
      | depth + 1 =>
        (inlineEntries fuel depth true .fresh rest).map fun (s, rest) => (.table s.toTable, rest)
    | 't' :: 'r' :: 'u' :: 'e' :: rest => .ok (.boolean true, rest)
    | 'f' :: 'a' :: 'l' :: 's' :: 'e' :: rest => .ok (.boolean false, rest)
    | c :: _ =>
      if c = '"' || c = '\'' then
        (string text).map fun (s, rest) => (.string (String.ofList s), rest)
      else if c.isDigit || c = '+' || c = '-' then numberOrDate text
      else
        match namedFloat? text with
        | some (x, rest) => .ok (x, rest)
        | none => .error .value
    | [] => .error .value

/-- The rest of an array: its items, with commas between them and perhaps after the last one. -/
def arrayItems (fuel depth : Nat) (text : List Char) : Except Fault (List Value × List Char) :=
  match fuel with
  | 0 => .error .nesting
  | fuel + 1 =>
    match skipLines text.length text with
    | ']' :: rest => .ok ([], rest)
    | text => do
      let (item, rest) ← value fuel depth text
      match skipLines rest.length rest with
      | ',' :: rest =>
        let (items, rest) ← arrayItems fuel depth rest
        return (item :: items, rest)
      | ']' :: rest => return ([item], rest)
      | _ => .error .value

/-- The rest of an inline table, given its entries so far: keys with values, on one line and with
    commas between them. Only at the start may it end at once. -/
def inlineEntries (fuel depth : Nat) (start : Bool) (s : Section) (text : List Char) :
    Except Fault (Section × List Char) :=
  match fuel with
  | 0 => .error .nesting
  | fuel + 1 =>
    match start, skipBlanks text with
    | true, '\x7d' :: rest => .ok (s, rest)
    | _, text => do
      let (path, rest) ← keyPath nestingLimit text
      match rest with
      | '=' :: rest =>
        let (v, rest) ← value fuel depth (skipBlanks rest)
        let (path, key) := splitPath path
        let s ← s.put path key v
        match skipBlanks rest with
        | ',' :: rest => inlineEntries fuel depth false s rest
        | '\x7d' :: rest => return (s, rest)
        | _ => .error .value
      | _ => .error .key

end

/-! ## Lines -/

/-- The document so far: its sections, and the path of the header that lines belong to. -/
structure Draft where
  root : Section
  header : List String

/-- The document before its first line. -/
def Draft.empty : Draft :=
  ⟨.fresh, []⟩

/-- Enters a value into the table of the last header. -/
def Draft.put (d : Draft) (path : List String) (v : Value) : Except Fault Draft := do
  let (path, key) := splitPath path
  let root ← d.root.alter false (fun s => s.put path key v) d.header
  return { d with root }

/-- A header of a table, after its bracket. -/
def tableHeader (d : Draft) (text : List Char) : Except Fault (Draft × List Char) := do
  let (path, rest) ← keyPath nestingLimit text
  match rest with
  | ']' :: rest =>
    let rest ← endOfLine rest
    let (parent, key) := splitPath path
    let root ← d.root.openTable parent key
    return (⟨root, path⟩, rest)
  | _ => .error .key

/-- A header of an element of a sequence of tables, after its two brackets. -/
def elementHeader (d : Draft) (text : List Char) : Except Fault (Draft × List Char) := do
  let (path, rest) ← keyPath nestingLimit text
  match rest with
  | ']' :: ']' :: rest =>
    let rest ← endOfLine rest
    let (parent, key) := splitPath path
    let root ← d.root.openElement parent key
    return (⟨root, path⟩, rest)
  | _ => .error .key

/-- A key with its value. -/
def keyValue (d : Draft) (text : List Char) : Except Fault (Draft × List Char) := do
  let (path, rest) ← keyPath nestingLimit text
  match rest with
  | '=' :: rest =>
    let text := skipBlanks rest
    let (v, rest) ← value (2 * text.length + 2) nestingLimit text
    let rest ← endOfLine rest
    return (← d.put path v, rest)
  | _ => .error .key

/-- A line of a document, from its first character that is no blank. -/
def line (d : Draft) (text : List Char) : Except Fault (Draft × List Char) :=
  match text with
  | '[' :: '[' :: rest => elementHeader d rest
  | '[' :: rest => tableHeader d rest
  | '#' :: _ => (endOfLine text).map fun rest => (d, rest)
  | '\n' :: rest => .ok (d, rest)
  | '\r' :: '\n' :: rest => .ok (d, rest)
  | _ => keyValue d text

/-- The lines of a document; every one takes at least a character. -/
def lines : (fuel : Nat) → Draft → List Char → Except Fault Draft
  | 0, d, _ => .ok d
  | fuel + 1, d, text =>
    match skipBlanks text with
    | [] => .ok d
    | text => do
      let (d, rest) ← line d text
      lines fuel d rest

/-- The table that a document describes. A byte-order mark at the start does not count. -/
def document (text : List Char) : Except Fault Table := do
  let text := match text with
    | '\uFEFF' :: rest => rest
    | text => text
  let d ← lines (text.length + 1) .empty text
  return d.root.toTable

/-- The table that a document describes. -/
def Table.ofText? (text : String) : Except Fault Table :=
  document text.toList

end Versioning.Toml
