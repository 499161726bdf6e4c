import Versioning.Text.Bytes

/-!
# Path specifications

When the trees of two commits are compared, the path of a directory is not taken as such, but as a
*specification* of paths, byte by byte. In it a star stands for any bytes, slashes included, a
question mark for one, and brackets for one of a set; a backslash takes the meaning of the next byte
away; an exclamation mark at the beginning turns the specification around; and one that begins with
a hash sign does not count, so that no path is refused. Only a specification without wildcards
stands for the paths below it, too.

* `Pathspec.Glob.run` compares a pattern with a path;
* `Pathspec.ofBytes?` reads a specification, and `Pathspec.takes` tells which paths it takes;
* `FilePath.selects` tells which paths the path of a directory selects.
-/

namespace Versioning

/-- Whether a byte is a wildcard, or begins one. -/
def isWildcard (b : UInt8) : Bool :=
  b == '*'.toUInt8 || b == '?'.toUInt8 || b == '['.toUInt8

/-- Whether a byte takes the meaning of the next one away. -/
def isEscape (b : UInt8) : Bool :=
  b == '\\'.toUInt8

/-! ## Patterns -/

namespace Glob

/-- A part of a pattern. -/
inductive Part where
  | byte (b : UInt8)
  /-- A byte behind a backslash, or none at the end. -/
  | escaped (b? : Option UInt8)
  | any
  /-- Any bytes, or none. -/
  | star
  | set (negated : Bool) (ranges : List Text.ByteRange)
  /-- A set without an end, or with a class that does not exist. -/
  | malformed
  deriving DecidableEq, Repr

/-- Reads a member of a set that begins with a byte: its ranges, the byte that a hyphen behind it
    makes a range with, and what is left. Behind a range or a class there is no such byte. -/
def readMember (previous? : Option UInt8) (b : UInt8) (rest : List UInt8) :
    Option (List Text.ByteRange × Option UInt8 × List UInt8) :=
  let next? := rest.head?
  if isEscape b then next?.map fun c => ([(c, c)], some c, rest.tail)
  else if b == '-'.toUInt8 && previous?.isSome && next?.any (· != ']'.toUInt8) then do
    let first ← previous?
    let last ← next?
    if isEscape last then
      let last ← rest.tail.head?
      return ([(first, last)], none, rest.tail.tail)
    else return ([(first, last)], none, rest.tail)
  else if b == '['.toUInt8 && next? == some ':'.toUInt8 then
    let name := rest.tail.takeWhile (· != ']'.toUInt8)
    match rest.tail.dropWhile (· != ']'.toUInt8) with
    | [] => none
    | _ :: after =>
      if name.getLast? == some ':'.toUInt8 then
        (Text.byteClass? name.dropLast).map fun ranges => (ranges, none, after)
      else some ([(b, b)], some b, rest)
  else some ([(b, b)], some b, rest)

/-- Reads the members of a set up to the bracket that closes it, and what is behind it. At the
    beginning such a bracket stands for itself. -/
def readSet : (fuel : Nat) → (first : Bool) → (previous? : Option UInt8) → List UInt8 →
    Option (List Text.ByteRange × List UInt8)
  | 0, _, _, _ => none
  | _ + 1, _, _, [] => none
  | fuel + 1, first, previous?, b :: rest =>
    if b == ']'.toUInt8 && !first then some ([], rest)
    else do
      let (member, previous?, rest) ← readMember previous? b rest
      let (members, rest) ← readSet fuel false previous? rest
      return (member ++ members, rest)

/-- Reads the parts of a pattern. -/
def readParts : (fuel : Nat) → List UInt8 → List Part
  | 0, _ => []
  | _ + 1, [] => []
  | fuel + 1, b :: rest =>
    if b == '*'.toUInt8 then .star :: readParts fuel (rest.dropWhile (· == '*'.toUInt8))
    else if b == '?'.toUInt8 then .any :: readParts fuel rest
    else if isEscape b then .escaped rest.head? :: readParts fuel rest.tail
    else if b == '['.toUInt8 then
      let negated := rest.head? == some '!'.toUInt8 || rest.head? == some '^'.toUInt8
      match readSet fuel true none (if negated then rest.tail else rest) with
      | some (ranges, after) => .set negated ranges :: readParts fuel after
      | none => [.malformed]
    else .byte b :: readParts fuel rest

/-- The parts of a pattern. -/
def parts (pattern : List UInt8) : List Part :=
  readParts pattern.length pattern

/-- What a comparison comes to. -/
inductive Outcome where
  | found | missed
  /-- The path has ended before the pattern, so that there is no use in starting further behind. -/
  | stopped
  deriving DecidableEq, Repr

/-- Whether a part other than a star stands for a byte; there is no answer for a malformed one. -/
def Part.takes? : Part → UInt8 → Option Bool
  | byte b, c => some (c == b)
  | escaped b?, c => some (b? == some c)
  | any, _ => some true
  | star, _ => some true
  | set negated ranges, c => some (ranges.any (·.contains c) != negated)
  | malformed, _ => none

/-- The byte that the parts begin with, if it stands for itself. -/
def firstByte? : List Part → Option UInt8
  | .byte b :: _ => some b
  | _ => none

/-- Compares what is behind a star with the path from here on, or from further behind. If it begins
    with a byte that stands for itself, this is looked for first. -/
def runStar (rest : List UInt8 → Outcome) (first? : Option UInt8) :
    (seeking : Bool) → List UInt8 → Outcome
  | seeking, [] => if seeking then .missed else .stopped
  | _, c :: path =>
    if first?.any (· != c) then runStar rest first? true path
    else
      match rest (c :: path) with
      | .missed => runStar rest first? false path
      | outcome => outcome

/-- Compares the parts of a pattern with a path. -/
def run : List Part → List UInt8 → Outcome
  | [], [] => .found
  | [], _ :: _ => .missed
  | .star :: parts, path =>
    if parts.isEmpty then .found else runStar (run parts) (firstByte? parts) false path
  | _ :: _, [] => .stopped
  | part :: parts, c :: path =>
    match part.takes? c with
    | some true => run parts path
    | some false => .missed
    | none => .stopped

end Glob

/-! ## Specifications -/

/-- What a path is compared with. -/
inductive Pathspec where
  /-- Every path is taken. -/
  | everything
  | pattern (pattern : List UInt8) (negative wild : Bool)
  deriving DecidableEq, Repr

namespace Pathspec

/-- The part of a specification up to a line break, and whether it has a wildcard. -/
def scan : (escaped : Bool) → List UInt8 → List UInt8 × Bool
  | _, [] => ([], false)
  | escaped, b :: rest =>
    if isEscape b && !escaped then
      let (text, wild) := scan true rest
      (b :: text, wild)
    else if !escaped && (10 ≤ b && b ≤ 12) then ([], false)
    else
      let (text, wild) := scan false rest
      (b :: text, wild || isWildcard b && !escaped)

/-- Drops the spaces and tabs at the end, unless they are behind a backslash. The text is given from
    its end. -/
def dropSpaces : List UInt8 → List UInt8
  | [] => []
  | b :: rest =>
    if (b == ' '.toUInt8 || b == '\t'.toUInt8) && (rest.takeWhile isEscape).length % 2 == 0 then
      dropSpaces rest
    else b :: rest

/-- Takes a byte away from the beginning of a text. -/
def dropHead (b : UInt8) (text : List UInt8) : List UInt8 :=
  if text.head? == some b then text.tail else text

/-- Takes away what a specification may end with and what does not count: a carriage return, spaces,
    a slash, and a star behind a slash. -/
def trimEnd (text : List UInt8) : List UInt8 :=
  let kept := dropHead '/'.toUInt8 (dropSpaces (dropHead '\r'.toUInt8 text.reverse))
  match kept with
  | b :: c :: rest =>
    (if b == '*'.toUInt8 && c == '/'.toUInt8 then rest else b :: c :: rest).reverse
  | kept => kept.reverse

/-- Takes away the backslashes in front of blanks, and one at the end. -/
def unescapeBlanks : (escaped : Bool) → List UInt8 → List UInt8
  | _, [] => []
  | escaped, b :: rest =>
    if isEscape b && !escaped then unescapeBlanks true rest
    else if escaped && !Text.isBlankByte b then
      '\\'.toUInt8 :: b :: unescapeBlanks false rest
    else b :: unescapeBlanks false rest

/-- Reads a specification, unless it does not count. A slash at the beginning, or behind the
    exclamation mark, does not belong to the pattern. -/
def ofBytes? (text : List UInt8) : Option Pathspec :=
  if text == ['*'.toUInt8] || text == ['.'.toUInt8] then some .everything
  else if text.head? == some '#'.toUInt8 then none
  else
    let negative := text.head? == some '!'.toUInt8
    let (scanned, wild) := scan false (dropHead '/'.toUInt8 (dropHead '!'.toUInt8 text))
    let pattern := trimEnd scanned
    if pattern.isEmpty then none else some (.pattern (unescapeBlanks false pattern) negative wild)

/-- Whether a path is the one that a pattern spells, or lies below it. -/
def isAtOrBelow (pattern path : List UInt8) : Bool :=
  path == pattern || (pattern ++ ['/'.toUInt8]).isPrefixOf path

/-- Whether a specification takes a path. -/
def takes : Pathspec → List UInt8 → Bool
  | everything, _ => true
  | pattern text negative wild, path =>
    match if path == text then .found else Glob.run (Glob.parts text) path with
    | .found => !negative
    | .missed =>
      if !wild && isAtOrBelow text path then !negative
      else negative && isAtOrBelow ('!'.toUInt8 :: text) path
    | .stopped => false

/-- What a text has in front of its first wildcard. -/
def beforeWildcard : (previous? : Option UInt8) → List UInt8 → List UInt8
  | _, [] => []
  | previous?, b :: rest =>
    if isWildcard b && !previous?.any isEscape then [] else b :: beforeWildcard (some b) rest

/-- Takes the backslashes away from what they stand in front of. -/
def unescape : List UInt8 → List UInt8
  | [] => []
  | [b] => [b]
  | b :: c :: rest => if isEscape b then c :: unescape rest else b :: unescape (c :: rest)

/-- What the paths begin with that are compared with a specification at all. -/
def start (text : List UInt8) : List UInt8 :=
  unescape (beforeWildcard none text)

end Pathspec

/-- The names on the way to a file from the root of its tree. -/
abbrev FilePath := List String

namespace FilePath

/-- The text of a path, as bytes. -/
def bytes (path : FilePath) : List UInt8 :=
  Text.bytes ("/".intercalate path)

/-- Whether a path is selected when the path of a directory is taken for a specification. -/
def selects (directory path : FilePath) : Bool :=
  (Pathspec.start directory.bytes).isPrefixOf path.bytes &&
    (Pathspec.ofBytes? directory.bytes).all fun spec => spec.takes path.bytes

end FilePath

end Versioning
