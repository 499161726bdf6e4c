import Versioning.FileTree
import Versioning.Repository.Graph

/-!
# The change log of a repository

A repository lies in a file tree: at the root of a working tree, or by itself without
one. Its change log is that of the commit which the head names. The log of a
directory below the root of the working tree holds what changed that directory; for
any other directory it is the whole history.

* `Repository.open?` finds the repository at a path or above it;
* `Repository.logBy` is its change log for a given order of the commits, and `Repository.log`
  that in the order of `CommitGraph.walk`.
-/

namespace Versioning

/-- A repository. -/
structure Repository where
  graph : CommitGraph
  /-- The commit that the head names, if there is one. -/
  head? : Option Nat
  /-- Where the repository lies. -/
  root : Place
  /-- Whether the repository has no working tree. -/
  bare : Bool

namespace Repository

/-- The repository at a path or above it, if it is the given one. -/
def open? (repository? : Option Repository) (tree : FileTree) (directory : Place) (path : String) :
    Except ReleaseError Repository :=
  match repository?, tree.resolve directory path with
  | some repository, .ok place =>
    if repository.root.isPrefixOf place then .ok repository
    else .error (.repository (.notFound path))
  | _, _ => .error (.repository (.notFound path))

/-- The path of a directory from the root of the working tree; there is none for the root itself,
    for a directory outside of it, and without a working tree. A directory that does not exist
    counts by its text, and the empty names and dots inside of this are names like others. -/
def pathOf? (repository : Repository) (tree : FileTree) (directory : Place) (path : String) :
    Option FilePath :=
  if repository.bare then none
  else
    let below? := match tree.resolve directory path with
      | .ok place =>
        if repository.root.isPrefixOf place then some (place.drop repository.root.length) else none
      | .error _ =>
        if isAbsolute path then namesBelow? repository.root (pathNames path) else none
    below?.filter fun below => !below.isEmpty

/-- The change log, as it is seen from a working directory, with the commits in the order in which
    a walk gives them. -/
def logBy (walk : CommitGraph → Nat → List Nat) (repository : Repository) (tree : FileTree)
    (directory : Place) : ChangeLog where
  answer _ request :=
    match repository.head? with
    | none => .error (.unresolvedHead .unbornHead)
    | some head =>
      .ok (repository.graph.page (repository.pathOf? tree directory request.directory)
        request.limit (walk repository.graph head))

/-- The change log, as it is seen from a working directory. -/
def log : Repository → FileTree → Place → ChangeLog :=
  logBy CommitGraph.walk

end Repository

end Versioning
