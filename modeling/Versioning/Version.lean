import Versioning.BumpLevel
import Versioning.Snapshot
import Versioning.Text.Blank

/-!
# Versions

A version is one to three numbers, then perhaps a qualifier, and the marker of a
version under development. The numbers are 64-bit words. A version keeps the
count of numbers it was written with: `1.2` and `1.2.0` are different versions
with the same major, minor and patch number.

* `Version.parse?` reads a version and `Version.text` writes it;
* `Version.bump?` takes the step to the next version, unless a number overflows.
-/

namespace Versioning

/-- One, two or three numbers. -/
inductive Numbers where
  | one (major : UInt64)
  | two (major minor : UInt64)
  | three (major minor patch : UInt64)
  deriving DecidableEq, Repr, Inhabited

namespace Numbers

/-- The first number. -/
def major : Numbers → UInt64
  | one a => a
  | two a _ => a
  | three a _ _ => a

/-- The second number, zero if it is left out. -/
def minor : Numbers → UInt64
  | one _ => 0
  | two _ b => b
  | three _ b _ => b

/-- The third number, zero if it is left out. -/
def patch : Numbers → UInt64
  | one _ => 0
  | two _ _ => 0
  | three _ _ c => c

/-- The numbers that are written. -/
def toList : Numbers → List UInt64
  | one a => [a]
  | two a b => [a, b]
  | three a b c => [a, b, c]

/-- One to three numbers, if there are as many. -/
def ofList? : List UInt64 → Option Numbers
  | [a] => some (one a)
  | [a, b] => some (two a b)
  | [a, b, c] => some (three a b c)
  | _ => none

/-- The next number, if it still fits into a word. -/
def next? (n : UInt64) : Option UInt64 :=
  if n.toNat + 1 < UInt64.size then some (n + 1) else none

/-- Raises the number of a level and sets those below it to zero; numbers that were left out
    are written as far as the level needs them. -/
def bump? (level : BumpLevel) (numbers : Numbers) : Option Numbers :=
  match level, numbers with
  | .none, numbers => some numbers
  | .major, one a => (next? a).map one
  | .major, two a _ => (next? a).map fun a => two a 0
  | .major, three a _ _ => (next? a).map fun a => three a 0 0
  | .minor, one a => some (two a 1)
  | .minor, two a b => (next? b).map (two a)
  | .minor, three a b _ => (next? b).map fun b => three a b 0
  | .patch, one a => some (three a 0 1)
  | .patch, two a b => some (three a b 1)
  | .patch, three a b c => (next? c).map (three a b)

/-- The decimal digits of a number, without superfluous zeros. -/
def digits (n : UInt64) : List Char :=
  Nat.toDigits 10 n.toNat

/-- The numbers in decimal, with points between them. -/
def chars (numbers : Numbers) : List Char :=
  List.intercalate ['.'] (numbers.toList.map digits)

/-- Reads a number: decimal digits, a plus sign before them if need be, whose value fits into
    a word. -/
def parseOne? (part : List Char) : Option UInt64 :=
  let digits := match part with
    | '+' :: rest => rest
    | part => part
  if digits.isEmpty || !digits.all Char.isDigit then none
  else
    let value := Nat.ofDigitChars 10 digits 0
    if value < UInt64.size then some (UInt64.ofNat value) else none

/-- Splits a text at every point. -/
def splitPoints : List Char → List (List Char)
  | [] => [[]]
  | c :: rest =>
    if c = '.' then [] :: splitPoints rest
    else
      match splitPoints rest with
      | [] => [[c]]
      | part :: parts => (c :: part) :: parts

/-- Reads one to three numbers with points between them. -/
def parse? (text : List Char) : Option Numbers :=
  ((splitPoints text).mapM parseOne?).bind ofList?

end Numbers

/-- A version. -/
structure Version where
  numbers : Numbers
  qualifier? : Option String
  snapshot : Bool
  deriving DecidableEq, Repr, Inhabited

namespace Version

/-- The release version with three numbers. -/
def ofNumbers (major minor patch : UInt64) : Version :=
  ⟨.three major minor patch, none, false⟩

/-- The major number. -/
def major (v : Version) : UInt64 := v.numbers.major

/-- The minor number, zero if it is left out. -/
def minor (v : Version) : UInt64 := v.numbers.minor

/-- The patch number, zero if it is left out. -/
def patch (v : Version) : UInt64 := v.numbers.patch

/-- Splits the marker, with the hyphen before it, from the end of a text. -/
def splitMarker (text : List Char) : List Char × Bool :=
  match takeSuffix? snapshotMarker.toList text with
  | some rest => ((takeSuffix? ['-'] rest).getD rest, true)
  | none => (text, false)

/-- Splits a text at its first hyphen into numbers and qualifier; an empty qualifier counts as
    none. -/
def splitQualifier (text : List Char) : List Char × Option String :=
  match text.dropWhile (· != '-') with
  | [] => (text, none)
  | _ :: [] => (text.takeWhile (· != '-'), none)
  | _ :: qualifier => (text.takeWhile (· != '-'), some (String.ofList qualifier))

/-- Reads a version; blanks around it do not count. -/
def parse? (text : String) : Option Version :=
  let (body, snapshot) := splitMarker (Text.trimList text.toList)
  let (numbers, qualifier?) := splitQualifier body
  (Numbers.parse? numbers).map fun numbers => ⟨numbers, qualifier?, snapshot⟩

/-- The characters of a version: the numbers, the qualifier and the marker, with hyphens between
    them. -/
def chars (v : Version) : List Char :=
  v.numbers.chars
    ++ (match v.qualifier? with
      | some qualifier => '-' :: qualifier.toList
      | none => [])
    ++ (if v.snapshot then '-' :: snapshotMarker.toList else [])

/-- The text of a version. -/
def text (v : Version) : String :=
  String.ofList v.chars

/-- The next version of a level, unless the number to raise is the last word. The qualifier is
    dropped and the marker is kept; the level `none` keeps all. -/
def bump? (level : BumpLevel) (v : Version) : Option Version :=
  match level with
  | .none => some v
  | level => (v.numbers.bump? level).map fun numbers => ⟨numbers, none, v.snapshot⟩

/-- The same version without the marker. -/
def toRelease (v : Version) : Version :=
  { v with snapshot := false }

/-- The same version with the marker. -/
def toSnapshot (v : Version) : Version :=
  { v with snapshot := true }

/-- The major, minor and patch number in decimal, whatever was written. -/
def strictText (v : Version) : String :=
  String.ofList (Numbers.three v.major v.minor v.patch).chars

end Version

end Versioning
