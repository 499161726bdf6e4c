import Versioning.Pattern.Cursor
import Versioning.Pattern.Syntax
import Versioning.Text.Hexadecimal

/-!
# Escapes

After a backslash, letters and signs stand for characters, for properties of characters, or
for conditions on a position. What an escape, or a plain character, stands for is an
`Atom`.

* `Reader.escape` reads what follows a backslash;
* `Reader.namedProperty` reads the name of a property;
* `Reader.count` reads the number of a counted repetition.
-/

namespace Versioning.Pattern.Reader

/-- The character whose code point has the given hexadecimal digits. -/
def charOfHex (digits : List Char) : Reader Char := do
  let some values := digits.mapM Text.hexValue? | throw .escape
  let code := values.foldl (fun n d => 16 * n + d) 0
  if values.isEmpty || !code.isValidChar then throw .escape
  return Char.ofNat code

/-- A count of a repetition: decimal digits, with blanks around them. -/
def count : Reader Nat := do
  let _ ← takeWhile Text.isBlankChar
  let digits ← takeSpaced Char.isDigit (← remaining)
  let _ ← takeWhile Text.isBlankChar
  skipSpace
  let value := digits.foldl (fun n d => 10 * n + (d.toNat - '0'.toNat)) 0
  if digits.isEmpty || UInt32.size ≤ value then throw .repetitionCount
  return value

/-- A fixed number of hexadecimal digits, with spaces between them where allowed. -/
def hexDigits : Nat → Reader (List Char)
  | 0 => return []
  | n + 1 => do
    let some c ← peek | throw .escape
    bumpSpace
    return c :: (← hexDigits n)

/-- The code point after `\x`, `\u` or `\U`: that many digits, or any number in braces. -/
def hexEscape (width : Nat) : Reader Char := do
  if (← peek) = some '\x7b' then
    bumpSpace
    let digits ← takeSpaced (· != '\x7d') (← remaining)
    if (← peek).isNone then throw .escape
    bumpSpace
    charOfHex digits
  else
    charOfHex (← hexDigits width)

/-- The set that folds and negates `set` as the flags and the sign say. -/
def refine (flags : Flags) (negated : Bool) (set : CharSet) : CharSet :=
  let folded :=
    if flags.anyCase then (if flags.unicode then .anyCase set else .anyAsciiCase set) else set
  if negated then .complement folded else folded

/-- The property named after `\p` or `\P`. -/
def namedProperty (negated : Bool) : Reader CharSet := do
  let flags := (← get).flags
  if !flags.unicode then throw .notUnicode
  let some c ← peek | throw .escape
  let name ←
    if c = '\x7b' then do
      bumpSpace
      let name ← takeSpaced (· != '\x7d') (← remaining)
      if (← peek).isNone then throw .escape
      bump
      pure name
    else if c = '\\' then throw .unknownProperty
    else do
      bumpSpace
      pure [c]
  match Property.ofText? name with
  | some p => return refine flags negated (.property p)
  | none => throw .unknownProperty

/-- What one escape or one plain character stands for. -/
inductive Atom where
  | literal (c : Char)
  | set (s : CharSet)
  | look (l : Look)

/-- The properties with a letter of their own; under the ASCII flag they are finite sets. -/
def classSet (flags : Flags) (letter : Char) : CharSet :=
  if flags.unicode then
    match letter with
    | 'd' => .property .digit
    | 's' => .property .blank
    | _ => .property .word
  else
    match letter with
    | 'd' => .range '0' '9'
    | 's' => .unions [.range '\t' '\r', .single ' ']
    | _ => .unions [.range '0' '9', .range 'A' 'Z', .range 'a' 'z', .single '_']

/-- The property that a letter after a backslash stands for; a capital is its complement. -/
def classAtom (c : Char) : Reader Atom := do
  let flags := (← get).flags
  if c.isUpper then
    if !flags.unicode then throw .notUnicode
    return .set (.complement (classSet flags c.toLower))
  else return .set (classSet flags c)

/-- The word boundary, and its variants named in braces. Braces that hold no name are left
    to be read as a repetition. -/
def boundaryAtom : Reader Atom := do
  let start ← get
  let ascii := !start.flags.unicode
  let isNameChar (c : Char) : Bool := c.isAlpha || c == '-'
  if (← peek) != some '\x7b' then return .look (.wordBoundary ascii false)
  bumpSpace
  match ← peek with
  | none => throw .escape
  | some c =>
    if !isNameChar c then
      set start
      return .look (.wordBoundary ascii false)
    let name ← takeSpaced isNameChar (← remaining)
    if (← peek) != some '\x7d' then throw .escape
    bump
    match String.ofList name with
    | "start" => return .look (.wordStart ascii false)
    | "end" => return .look (.wordEnd ascii false)
    | "start-half" => return .look (.wordStart ascii true)
    | "end-half" => return .look (.wordEnd ascii true)
    | _ => throw .escape

/-- An escape, after its backslash. -/
def escape : Reader Atom := do
  let ascii := !(← get).flags.unicode
  let some c ← peek | throw .escape
  if c.isDigit then throw .backReference
  match c with
  | 'x' => bumpSpace; return .literal (← hexEscape 2)
  | 'u' => bumpSpace; return .literal (← hexEscape 4)
  | 'U' => bumpSpace; return .literal (← hexEscape 8)
  | 'p' => bumpSpace; return .set (← namedProperty false)
  | 'P' => bumpSpace; return .set (← namedProperty true)
  | 'd' | 's' | 'w' | 'D' | 'S' | 'W' => bump; classAtom c
  | 'a' => bump; return .literal '\x07'
  | 'f' => bump; return .literal '\x0c'
  | 't' => bump; return .literal '\t'
  | 'n' => bump; return .literal '\n'
  | 'r' => bump; return .literal '\r'
  | 'v' => bump; return .literal '\x0b'
  | 'A' => bump; return .look .textStart
  | 'z' => bump; return .look .textEnd
  | 'b' => bump; boundaryAtom
  | 'B' => bump; return .look (.wordBoundary ascii true)
  | '<' => bump; return .look (.wordStart ascii false)
  | '>' => bump; return .look (.wordEnd ascii false)
  | _ =>
    bump
    if c.toNat < 128 && !c.isAlphanum then return .literal c else throw .escape

/-- An escape or a plain character. -/
def atomOrEscape : Reader Atom := do
  match ← peek with
  | some '\\' => bump; escape
  | some c => bump; return .literal c
  | none => throw .escape

end Versioning.Pattern.Reader
