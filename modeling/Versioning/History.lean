import Versioning.ChangeLog
import Versioning.Rules

/-!
# History since the latest release

The changes since the latest release are found by reading the change log from the
newest change back to the first one with a version tag. How far back that is
is not known, so the log is read page by page: each page is longer than the
one before and is scanned from its beginning, until it holds a tag, reaches the end
of the history or a configured cap, or the log answers no more than last time.

* `CommitHistory.scan` reads one page;
* `CommitHistory.mine` asks for longer and longer pages.
-/

namespace Versioning

/-- How the change log is paged. -/
structure MiningLimits where
  initialPage : Nat
  pageStep : Nat
  /-- Stop after so many changes even without a tag. -/
  maxCommits? : Option Nat
  deriving DecidableEq, Repr

/-- Pages of ten, twenty, … changes, without a cap. -/
def MiningLimits.default : MiningLimits :=
  ⟨10, 10, none⟩

/-- The messages of the changes since the latest release, newest first, and its version. -/
structure CommitHistory where
  changes : List String
  tag? : Option String
  deriving DecidableEq, Repr

namespace CommitHistory

/-- No changes and no release. -/
def empty : CommitHistory :=
  ⟨[], none⟩

/-- Puts a newer change in front. -/
def cons (message : String) (history : CommitHistory) : CommitHistory :=
  { history with changes := message :: history.changes }

/-- The versions that the tags of a change name. -/
def versionsOf (rules : Rules) (change : ChangeSet) : List String :=
  change.tags.filterMap rules.extractTag?

/-- Reads a page up to the first change with a version tag. That change may name only one
    version; otherwise the versions are the error. -/
def scan (rules : Rules) : List ChangeSet → Except (List String) CommitHistory
  | [] => .ok empty
  | change :: rest =>
    match versionsOf rules change with
    | [] => (scan rules rest).map (cons change.message)
    | [version] => .ok ⟨[], some version⟩
    | versions => .error versions

/-- The size of words: limits stay below it. -/
def wordLimit : Nat := UInt64.size

/-- The first limit: at least one change is asked for, and no more than the cap. -/
def firstLimit (limits : MiningLimits) : Nat :=
  let limit := max limits.initialPage 1
  match limits.maxCommits? with
  | some cap => min limit (max cap 1)
  | none => limit

/-- By how much the limit grows. -/
def step (limits : MiningLimits) : Nat :=
  max limits.pageStep 1

/-- The limit after `limit`, unless the sum exceeds the largest word. -/
def nextLimit? (limits : MiningLimits) (limit : Nat) : Option Nat :=
  if limit + step limits < wordLimit then
    some (match limits.maxCommits? with
      | some cap => min (limit + step limits) cap
      | none => limit + step limits)
  else none

/-- Whether a page ends the search: the history or the cap is reached, or the log answers as many
    changes as last time. -/
def isLast (limits : MiningLimits) (limit length : Nat) (previous? : Option Nat) : Bool :=
  length < limit || previous? == some length || limits.maxCommits?.any (· ≤ limit)

/-- What is reported about the page that ends the search. -/
def minedText (history : CommitHistory) (limit : Nat) : String :=
  "Mined " ++ toString history.changes.length ++ " change(s) in a page of " ++ toString limit
    ++ ", tag: " ++ history.tag?.getD "none"

/-- Asks for pages of at least `limit` changes, the first of them after one with `previous?`
    changes. Limits grow, so `fuel` pages are enough to exceed the largest word. -/
def mineFrom (log : ChangeLog) (directory : String) (rules : Rules) (limits : MiningLimits) :
    (fuel limit : Nat) → (previous? : Option Nat) → Consult CommitHistory
  | 0, _, _ => throw .overflow
  | fuel + 1, limit, previous? => do
    match ← Consult.ask log ⟨directory, limit⟩ with
    | .error e =>
      Consult.fail (.scmCausedBy ("Unable to read the change log of " ++ directory) e)
    | .ok page =>
      match scan rules page with
      | .error versions => Consult.fail (.ambiguousTag versions)
      | .ok history =>
        if history.tag?.isSome || isLast limits limit page.length previous? then
          Consult.report .debug (minedText history limit)
          return history
        else
          match nextLimit? limits limit with
          | none => throw .overflow
          | some next => mineFrom log directory rules limits fuel next (some page.length)

/-- The history since the latest release, from the change log of a directory. -/
def mine (log : ChangeLog) (directory : String) (rules : Rules) (limits : MiningLimits) :
    Consult CommitHistory :=
  mineFrom log directory rules limits (wordLimit + 1) (firstLimit limits) none

/-- The level of the changes since the latest release. -/
def bumpLevel (history : CommitHistory) (rules : Rules) : BumpLevel :=
  rules.maxBump history.changes history.tag?.isSome

end CommitHistory

end Versioning
