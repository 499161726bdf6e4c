import Versioning.Pattern.Fault
import Versioning.Text.Blank

/-!
# Reading from left to right

A pattern is read with a *cursor*: the rest of its text, the flags in force, and the groups
opened so far. The steps of reading form the monad `Reader`; here are the smallest of them,
which look at the next characters and move past them.

Under the flag `spaced`, blanks and comments between the parts of a pattern do not
count. Which steps skip them is part of the notation, so there are steps of both kinds.
-/

namespace Versioning.Pattern

/-- The switches that change what the text of a pattern means. -/
structure Flags where
  /-- Letters match both of their cases. -/
  anyCase : Bool
  /-- The anchors match at the ends of every line. -/
  multiLine : Bool
  /-- The dot matches line feeds, too. -/
  dotAll : Bool
  /-- Greedy and lazy repetitions change places. -/
  swapGreed : Bool
  /-- Properties and cases are those of Unicode. -/
  unicode : Bool
  /-- A carriage return ends a line, too. -/
  returns : Bool
  /-- Blanks and comments in the pattern are skipped. -/
  spaced : Bool
  deriving DecidableEq, Repr

/-- The flags of a pattern that does not set any itself. -/
def Flags.plain : Flags :=
  ⟨false, false, false, false, true, false, false⟩

/-- Where the reader stands: the rest of the text, the flags in force, the number of capture
    groups so far and the names given to them. -/
structure Cursor where
  rest : List Char
  flags : Flags
  groups : Nat
  names : List (List Char)

/-- A step of reading. -/
abbrev Reader := StateT Cursor (Except Fault)

namespace Reader

/-- The next character. -/
def peek : Reader (Option Char) := do
  return (← get).rest.head?

/-- Moves past the next character. -/
def bump : Reader Unit :=
  modify fun s => { s with rest := s.rest.drop 1 }

/-- Skips blanks and comments; a comment goes to the end of its line. -/
def withoutComments : (inComment : Bool) → List Char → List Char
  | _, [] => []
  | true, c :: rest => withoutComments (c != '\n') rest
  | false, c :: rest =>
    if Text.isBlankChar c then withoutComments false rest
    else if c == '#' then withoutComments true rest
    else c :: rest

/-- The text after the blanks and comments that the flags let the reader skip. -/
def spaceless (flags : Flags) (text : List Char) : List Char :=
  if flags.spaced then withoutComments false text else text

/-- Skips blanks and comments where the flags say so. -/
def skipSpace : Reader Unit :=
  modify fun s => { s with rest := spaceless s.flags s.rest }

/-- Moves past the next character and the space after it. -/
def bumpSpace : Reader Unit := do
  bump
  skipSpace

/-- The next character after the one at hand, spaces apart. -/
def peekAfter : Reader (Option Char) := do
  let s ← get
  return (spaceless s.flags (s.rest.drop 1)).head?

/-- Moves past the expected text, if it comes next. -/
def bumpIf (expected : String) : Reader Bool := do
  let s ← get
  if expected.toList.isPrefixOf s.rest then
    set { s with rest := s.rest.drop expected.length }
    return true
  else
    return false

/-- Reads characters of a kind. -/
def takeWhile (p : Char → Bool) : Reader (List Char) := do
  let s ← get
  set { s with rest := s.rest.dropWhile p }
  return s.rest.takeWhile p

/-- Reads characters of a kind between which spaces may stand. -/
def takeSpaced (p : Char → Bool) : (fuel : Nat) → Reader (List Char)
  | 0 => return []
  | fuel + 1 => do
    match ← peek with
    | some c =>
      if p c then
        bumpSpace
        return c :: (← takeSpaced p fuel)
      else return []
    | none => return []

/-- The number of characters that are left. -/
def remaining : Reader Nat := do
  return (← get).rest.length

end Reader

end Versioning.Pattern
