import Versioning.ChangeLog
import Versioning.OrderedMap
import Versioning.Repository.Pathspec

/-!
# Commit graphs

A repository is a graph of commits. A commit has a tree of files, a time, and parents,
the first of which it is compared with; tags give names to commits. The history of a commit
is read in one fixed order: of the commits whose children were all given, the newest comes
next.

* `CommitGraph.reachable` are a commit and its ancestors;
* `CommitGraph.walk` lists them in that order;
* `CommitGraph.touches` says which commits count as changes of a directory;
* `CommitGraph.tagsOf` are the tags of a commit;
* `CommitGraph.page` collects a page of a history.
-/

namespace Versioning

/-- The files of a tree with their contents. -/
abbrev FileContents := List (FilePath × String)

/-- A commit. Commits are known by their positions in the graph. -/
structure Commit where
  /-- The message, if it is text. -/
  message? : Option String
  files : FileContents
  parents : List Nat
  time : Nat
  deriving Repr, DecidableEq

/-- What a tag names. -/
inductive TagTarget where
  | commit (index : Nat)
  /-- The tree of a commit, without the commit. -/
  | tree (index : Nat)
  /-- A note about another target. -/
  | annotation (target : TagTarget)
  deriving Repr, DecidableEq

/-- The commit that a target leads to through all annotations. -/
def TagTarget.commit? : TagTarget → Option Nat
  | commit i => some i
  | tree _ => none
  | annotation target => target.commit?

/-- The commits of a repository and its tags by name. A commit comes after its parents, so there
    are no cycles. -/
structure CommitGraph where
  commits : List Commit
  tags : OrderedMap String TagTarget
  parents_lt : ∀ (i : Nat) (hi : i < commits.length), ∀ p ∈ commits[i].parents, p < i
  deriving DecidableEq

namespace FileContents

/-- Takes a file out of a tree. -/
def erase (files : FileContents) (path : FilePath) : FileContents :=
  files.filter fun e => e.1 != path

/-- Puts a file into a tree. A place is a file or a directory, so files that the path leads through
    or that lie below it give way. -/
def write (files : FileContents) (path : FilePath) (content : String) : FileContents :=
  (path, content) :: files.filter fun e => !(e.1.isPrefixOf path || path.isPrefixOf e.1)

/-- Applies changes to a tree: a file with a content is written, one without is removed. -/
def apply (files : FileContents) (changes : List (FilePath × Option String)) : FileContents :=
  changes.foldl (fun files (path, content?) =>
    match content? with
    | some content => files.write path content
    | none => files.erase path) files

/-- Whether some of the paths are different in two trees. -/
def differs (a b : FileContents) (selects : FilePath → Bool) : Bool :=
  (a ++ b).any fun e => selects e.1 && a.lookup e.1 != b.lookup e.1

end FileContents

namespace CommitGraph

/-- The graph without commits. -/
def empty : CommitGraph :=
  ⟨[], .empty, fun _ hi => absurd hi (Nat.not_lt_zero _)⟩

/-- The parents of a commit. -/
def parents (g : CommitGraph) (i : Nat) : List Nat :=
  match g.commits[i]? with
  | some c => c.parents
  | none => []

/-- Parents come before their children. -/
theorem lt_of_mem_parents {g : CommitGraph} {i p : Nat} (h : p ∈ g.parents i) : p < i := by
  rw [parents] at h
  split at h
  · next c hc =>
    obtain ⟨hi, rfl⟩ := List.getElem?_eq_some_iff.1 hc
    exact g.parents_lt i hi p h
  · cases h

/-- The time of a commit. -/
def time (g : CommitGraph) (i : Nat) : Nat :=
  match g.commits[i]? with
  | some c => c.time
  | none => 0

/-- The files of a commit. -/
def filesOf (g : CommitGraph) (i : Nat) : FileContents :=
  match g.commits[i]? with
  | some c => c.files
  | none => []

/-- The files that a commit is compared with: those of its first parent. -/
def parentFiles (g : CommitGraph) (i : Nat) : FileContents :=
  match g.parents i with
  | p :: _ => g.filesOf p
  | [] => []

/-- Adds a commit whose tree is that of its first parent with some changes. Parents that are not
    there do not count. -/
def add (g : CommitGraph) (message? : Option String) (changes : List (FilePath × Option String))
    (parents : List Nat) (time : Nat) : CommitGraph :=
  let parents := parents.filter (· < g.commits.length)
  let files := match parents with
    | p :: _ => g.filesOf p
    | [] => []
  { g with
    commits := g.commits ++ [⟨message?, files.apply changes, parents, time⟩]
    parents_lt := fun i hi p hp => by
      rw [List.getElem_append] at hp
      split at hp
      · exact g.parents_lt i _ p hp
      · have hlast : i = g.commits.length := by
          rw [List.length_append, List.length_singleton] at hi
          omega
        rw [List.getElem_singleton] at hp
        exact hlast ▸ of_decide_eq_true (List.mem_filter.1 hp).2 }

/-- Adds a tag, or gives the tag of that name another target. -/
def addTag (g : CommitGraph) (name : String) (target : TagTarget) : CommitGraph :=
  { g with tags := g.tags.insert name target }

/-- Some commits and their parents. -/
def withParents (g : CommitGraph) (found : List Nat) : List Nat :=
  (found.flatMap g.parents).foldl (fun found p => if found.contains p then found else found ++ [p])
    found

/-- Some commits and their ancestors of so many generations. -/
def ancestors (g : CommitGraph) : (generations : Nat) → List Nat → List Nat
  | 0, found => found
  | n + 1, found => g.ancestors n (g.withParents found)

/-- A commit and its ancestors. -/
def reachable (g : CommitGraph) (head : Nat) : List Nat :=
  g.ancestors g.commits.length [head]

/-- The newest of some commits; of two with the same time, the one that is listed first. -/
def newest? (g : CommitGraph) : List Nat → Option Nat
  | [] => none
  | i :: rest =>
    match g.newest? rest with
    | none => some i
    | some j => if g.time i < g.time j then some j else some i

/-- The commits that may come next: not given yet, and all of their children given. -/
def available (g : CommitGraph) (all given : List Nat) : List Nat :=
  all.filter fun i =>
    !given.contains i && all.all fun child => given.contains child || !(g.parents child).contains i

/-- The commits in the order in which they are given, after those that were given. -/
def walkFrom (g : CommitGraph) (all : List Nat) : (fuel : Nat) → (given : List Nat) → List Nat
  | 0, _ => []
  | fuel + 1, given =>
    match g.newest? (g.available all given) with
    | none => []
    | some i => i :: g.walkFrom all fuel (i :: given)

/-- A commit and its ancestors, the newest first of those whose children were all given. -/
def walk (g : CommitGraph) (head : Nat) : List Nat :=
  let all := g.reachable head
  g.walkFrom all all.length []

/-- Whether a commit changed something that the path of a directory selects. -/
def touches (g : CommitGraph) (i : Nat) (directory : FilePath) : Bool :=
  (g.filesOf i).differs (g.parentFiles i) directory.selects

/-- Whether a commit counts in a directory; for the whole history all of them do. -/
def concerns (g : CommitGraph) (directory? : Option FilePath) (i : Nat) : Bool :=
  directory?.all fun directory => g.touches i directory

/-- The names of the tags that lead to a commit, in ascending order. -/
def tagsOf (g : CommitGraph) (i : Nat) : List String :=
  (g.tags.entries.filter fun e => e.2.commit? = some i).map (·.1)

/-- A commit as an entry of a change log: its message without the line feeds at the start, and
    its tags. -/
def changeSet (g : CommitGraph) (i : Nat) : ChangeSet :=
  match g.commits[i]? with
  | none => ⟨"", []⟩
  | some c =>
    { message := match c.message? with
        | some message => String.ofList (message.toList.dropWhile (· == '\n'))
        | none => "(empty message)"
      tags := g.tagsOf i }

/-- The history that some commits in an order make up: all of them, or those that changed a
    directory. -/
def historyOf (g : CommitGraph) (order : List Nat) (directory? : Option FilePath) :
    List ChangeSet :=
  let touching := match directory? with
    | some directory => order.filter fun i => g.touches i directory
    | none => order
  touching.map g.changeSet

/-- Goes through commits in an order and collects those that count, until there are enough. -/
def page (g : CommitGraph) (directory? : Option FilePath) : (limit : Nat) → (order : List Nat) →
    List ChangeSet
  | 0, _ => []
  | _ + 1, [] => []
  | limit + 1, i :: order =>
    if g.concerns directory? i then g.changeSet i :: g.page directory? limit order
    else g.page directory? (limit + 1) order

end CommitGraph

end Versioning
