import Versioning.Pattern.Brackets

/-!
# Reading patterns

The text of a pattern is read from left to right. A group restores the flags of its
surroundings when it closes. Reading fails with a `Fault` that tells what is wrong
with the text.

Alternatives and sequences contain each other, so their readers are mutually recursive;
they count down from a bound on the depth, which the length of the text supplies.

* `Node.ofText?` is the pattern that a whole text describes.
-/

namespace Versioning.Pattern

namespace Reader

/-- Sets or clears a flag. -/
def setFlag (flags : Flags) (value : Bool) : Char → Option Flags
  | 'i' => some { flags with anyCase := value }
  | 'm' => some { flags with multiLine := value }
  | 's' => some { flags with dotAll := value }
  | 'U' => some { flags with swapGreed := value }
  | 'u' => some { flags with unicode := value }
  | 'R' => some { flags with returns := value }
  | 'x' => some { flags with spaced := value }
  | _ => none

/-- Applies a text of flags; those after a hyphen are cleared. A flag may come only once, a
    hyphen too, and not at the end. -/
def applyFlags (flags : Flags) (text : List Char) : Option Flags :=
  let rec go (value : Bool) (flags : Flags) : List Char → Option Flags
    | [] => some flags
    | ['-'] => none
    | '-' :: rest => go false flags rest
    | c :: rest => (setFlag flags value c).bind fun flags => go value flags rest
  if text.Nodup then go true flags text else none

/-- What an opening parenthesis begins. -/
inductive Opening where
  /-- Flags for the rest of the group that surrounds them. -/
  | directive (flags : Flags)
  /-- A group that is not numbered. -/
  | plain (flags : Flags)
  /-- A group whose text is captured. -/
  | capture (index : Nat)

/-- Whether a character may stand in the name of a group. -/
def isGroupNameChar (first : Bool) (c : Char) : Bool :=
  if first then c == '_' || Unicode.isAlphabetic c
  else c == '_' || c == '.' || c == '[' || c == ']' || Unicode.isAlphabetic c || Unicode.isNumeric c

/-- The name of a group, up to the closing angle bracket; no two groups have the same one. -/
def groupName : Reader Unit := do
  let name ← takeWhile (· != '>')
  if !(← bumpIf ">") then throw .groupName
  match name with
  | [] => throw .groupName
  | c :: rest =>
    if !isGroupNameChar true c || !rest.all (isGroupNameChar false) then throw .groupName
  let s ← get
  if s.names.contains name then throw .groupNameRepeated
  set { s with names := name :: s.names }

/-- Numbers a new capture group. -/
def newGroup : Reader Opening := do
  modify fun s => { s with groups := s.groups + 1 }
  return .capture (← get).groups

/-- What follows an opening parenthesis. -/
def opening : Reader Opening := do
  skipSpace
  let s ← get
  let begins (text : String) : Bool := text.toList.isPrefixOf s.rest
  if begins "?=" || begins "?!" || begins "?<=" || begins "?<!" then throw .lookAround
  if ← bumpIf "?P<" then
    let group ← newGroup
    groupName
    return group
  else if ← bumpIf "?<" then
    let group ← newGroup
    groupName
    return group
  else if ← bumpIf "?" then
    let text ← takeWhile fun c => c != ':' && c != ')'
    let some flags := applyFlags s.flags text | throw .flags
    match ← peek with
    | some ')' =>
      bump
      if text.isEmpty then throw .repetitionOfNothing
      return .directive flags
    | some ':' => bump; return .plain flags
    | _ => throw .groupUnclosed
  else newGroup

/-- A part of a sequence: a pattern, or flags that were set between two of them. -/
inductive Item where
  | node (n : Node)
  | directive

/-- The pattern that the parts of a sequence, last first, make up. -/
def joinItems (items : List Item) : Node :=
  .sequence (items.reverse.filterMap fun
    | .node n => some n
    | .directive => none)

/-- The size to which a pattern may be expanded. -/
def sizeLimit : Nat :=
  10485760 / 32

/-- Repeats the last part of a sequence. -/
def repeatLast (min : Nat) (max? : Option Nat) (greedy : Bool) : List Item → Reader (List Item)
  | .node n :: items => do
    let greedy := greedy != (← get).flags.swapGreed
    if !n.consumesNothing && sizeLimit < n.size * Nat.max min (max?.getD 1) then
      throw .tooLarge
    return .node (.repeated greedy n min max?) :: items
  | _ => throw .repetitionOfNothing

/-- A repetition by a sign, which stands next, and the mark of laziness after it. -/
def repeatedBy (min : Nat) (max? : Option Nat) (items : List Item) : Reader (List Item) := do
  bump
  let lazy ← bumpIf "?"
  repeatLast min max? (!lazy) items

/-- A repetition by counts in braces. -/
def repeatedCount (items : List Item) : Reader (List Item) := do
  match items with
  | .node _ :: _ => pure ()
  | _ => throw .repetitionOfNothing
  bumpSpace
  let min ← count
  let max? ←
    if (← peek) = some ',' then do
      bumpSpace
      if (← peek) = some '\x7d' then pure none else pure (some (← count))
    else pure (some min)
  if (← peek) != some '\x7d' then throw .repetitionCount
  bumpSpace
  let lazy ← bumpIf "?"
  if max?.any (· < min) then throw .repetitionCount
  repeatLast min max? (!lazy) items

/-- The pattern of a single character or condition. -/
def atomNode : Atom → Reader Node
  | .literal c => return .one (refine (← get).flags false (.single c))
  | .set s => return .one s
  | .look l => return .look l

/-- A part that is neither a group nor a set nor a repetition. -/
def primitive (c : Char) : Reader Node := do
  let flags := (← get).flags
  match c with
  | '\\' => bump; atomNode (← escape)
  | '.' =>
    bump
    if !flags.unicode then throw .notUnicode
    if flags.dotAll then return .one (.property .any)
    else if flags.returns then return .one (.complement (.unions [.single '\n', .single '\r']))
    else return .one (.complement (.single '\n'))
  | '^' =>
    bump
    return .look (if !flags.multiLine then .textStart
      else if flags.returns then .returnLineStart else .lineStart)
  | '$' =>
    bump
    return .look (if !flags.multiLine then .textEnd
      else if flags.returns then .returnLineEnd else .lineEnd)
  | _ => bump; atomNode (.literal c)

mutual

/-- Alternatives, up to the end of the text or to a closing parenthesis. -/
def alternatives (depth : Nat) : Reader Node :=
  match depth with
  | 0 => throw .tooDeep
  | depth + 1 => do
    let first ← sequence depth []
    if (← peek) = some '|' then
      bump
      return .alt first (← alternatives depth)
    else return first

/-- A sequence of parts, given those already read, last first. -/
def sequence (depth : Nat) (items : List Item) : Reader Node :=
  match depth with
  | 0 => throw .tooDeep
  | depth + 1 => do
    skipSpace
    let some c ← peek | return joinItems items
    match c with
    | '|' => return joinItems items
    | ')' => return joinItems items
    | '(' =>
      bump
      let outer := (← get).flags
      match ← opening with
      | .directive flags =>
        modify fun s => { s with flags }
        sequence depth (.directive :: items)
      | .plain flags =>
        modify fun s => { s with flags }
        let body ← alternatives depth
        if !(← bumpIf ")") then throw .groupUnclosed
        modify fun s => { s with flags := outer }
        sequence depth (.node body :: items)
      | .capture index =>
        let body ← alternatives depth
        if !(← bumpIf ")") then throw .groupUnclosed
        modify fun s => { s with flags := outer }
        sequence depth (.node (.capture index body) :: items)
    | '[' => sequence depth (.node (.one (← bracketed)) :: items)
    | '?' => sequence depth (← repeatedBy 0 (some 1) items)
    | '*' => sequence depth (← repeatedBy 0 none items)
    | '+' => sequence depth (← repeatedBy 1 none items)
    | '\x7b' => sequence depth (← repeatedCount items)
    | _ => sequence depth (.node (← primitive c) :: items)

end

end Reader

/-- The pattern that a text describes under the given flags. -/
def Node.ofText? (flags : Flags) (text : String) : Except Fault Node := do
  let chars := text.toList
  let (node, cursor) ← (Reader.alternatives (2 * chars.length + 4)).run ⟨chars, flags, 0, []⟩
  if cursor.rest.isEmpty then return node else throw .groupUnopened

end Versioning.Pattern
