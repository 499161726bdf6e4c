import Versioning.Pattern.Escape

/-!
# Bracketed sets

Between brackets stand characters, ranges, properties and further brackets. Sets are
combined by writing them one after the other, or by one of three signs: `&&` for what
both have, `--` for what only the first one has, and `~~` for what only one of
them has. The signs group from left to right, and bind less tightly than
writing side by side.

* `Reader.bracketed` reads a set from its opening bracket.
-/

namespace Versioning.Pattern.Reader

/-- The ways of combining two sets inside brackets. -/
inductive SetOperation where
  | union | inter | diff | symmDiff

/-- Combines two sets, up to case where the flags say so. -/
def SetOperation.apply (flags : Flags) (op : SetOperation) (a b : CharSet) : CharSet :=
  let a := refine flags false a
  let b := refine flags false b
  match op with
  | union => .union a b
  | inter => .inter a b
  | diff => .diff a b
  | symmDiff => .symmDiff a b

/-- The sets that `[:name:]` stands for. -/
def asciiClass? : String → Option CharSet
  | "alnum" => some (.unions [.range '0' '9', .range 'A' 'Z', .range 'a' 'z'])
  | "alpha" => some (.unions [.range 'A' 'Z', .range 'a' 'z'])
  | "ascii" => some (.range '\x00' '\x7f')
  | "blank" => some (.unions [.single '\t', .single ' '])
  | "cntrl" => some (.unions [.range '\x00' '\x1f', .single '\x7f'])
  | "digit" => some (.range '0' '9')
  | "graph" => some (.range '!' '~')
  | "lower" => some (.range 'a' 'z')
  | "print" => some (.range ' ' '~')
  | "punct" => some (.unions [.range '!' '/', .range ':' '@', .range '[' '\x60', .range '\x7b' '~'])
  | "space" => some (.unions [.range '\t' '\r', .single ' '])
  | "upper" => some (.range 'A' 'Z')
  | "word" => some (.unions [.range '0' '9', .range 'A' 'Z', .range 'a' 'z', .single '_'])
  | "xdigit" => some (.unions [.range '0' '9', .range 'A' 'F', .range 'a' 'f'])
  | _ => none

/-- A set of the form `[:name:]`, if one comes next; otherwise nothing is read. -/
def asciiClass : Reader (Option CharSet) := do
  let start ← get
  if !(← bumpIf "[:") then return none
  let negated ← bumpIf "^"
  let name ← takeWhile (· != ':')
  let closed ← bumpIf ":]"
  match closed, asciiClass? (String.ofList name) with
  | true, some s => return some (refine start.flags negated s)
  | _, _ =>
    set start
    return none

/-- An item as a member of a set. -/
def memberSet : Atom → Reader CharSet
  | .literal c => return .single c
  | .set s => return s
  | .look _ => throw .setMember

/-- A member of a bracketed set: a character, a property, or a range of characters. -/
def member : Reader CharSet := do
  let first ← atomOrEscape
  skipSpace
  let next ← peek
  let after ← peekAfter
  if next.isNone then throw .setUnclosed
  if next != some '-' || after == some ']' || after == some '-' then
    memberSet first
  else
    bumpSpace
    if (← peek).isNone then throw .setUnclosed
    let last ← atomOrEscape
    match first, last with
    | .literal a, .literal b =>
      if a ≤ b then return .range a b else throw .setRange
    | _, _ => throw .setRange

/-- The hyphens at the start of a bracketed set, which are plain members. -/
def openingHyphens : (fuel : Nat) → CharSet → Reader CharSet
  | 0, s => return s
  | fuel + 1, s => do
    if (← peek) = some '-' then
      bumpSpace
      openingHyphens fuel (.union (.single '-') s)
    else return s

/-- What comes at the start of a bracketed set, after the bracket: a sign of negation, and
    the hyphens or the closing bracket that are plain members there. -/
def setOpening : Reader (Bool × CharSet) := do
  skipSpace
  let negated := (← peek) = some '^'
  if negated then bumpSpace
  let hyphens ← openingHyphens (← remaining) .none
  if hyphens = .none && (← peek) = some ']' then
    bumpSpace
    return (negated, .single ']')
  return (negated, hyphens)

/-- The rest of a bracketed set. What was read so far is the operand `left` with the operation
    that it waits for, and the union `items` that will be the other operand. -/
def setBody (negated : Bool) (depth : Nat) (left : Option (CharSet × SetOperation))
    (items : CharSet) : Reader CharSet :=
  match depth with
  | 0 => throw .tooDeep
  | depth + 1 => do
    skipSpace
    let flags := (← get).flags
    let closed := match left with
      | none => items
      | some (s, op) => op.apply flags s items
    let some c ← peek | throw .setUnclosed
    if c = '[' then
      match ← asciiClass with
      | some s => setBody negated depth left (.union items s)
      | none =>
        bump
        let (inner, opening) ← setOpening
        let nested ← setBody inner depth none opening
        setBody negated depth left (.union items nested)
    else if c = ']' then
      bump
      if negated && !flags.unicode then throw .notUnicode
      return refine flags negated closed
    else if ← bumpIf "&&" then setBody negated depth (some (closed, .inter)) .none
    else if ← bumpIf "--" then setBody negated depth (some (closed, .diff)) .none
    else if ← bumpIf "~~" then setBody negated depth (some (closed, .symmDiff)) .none
    else setBody negated depth left (.union items (← member))

/-- A bracketed set, from its opening bracket. -/
def bracketed : Reader CharSet := do
  bump
  let (negated, opening) ← setOpening
  setBody negated (2 * (← remaining) + 2) none opening

end Versioning.Pattern.Reader
