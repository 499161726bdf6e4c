import Versioning.Error

/-!
# File trees

The files and directories that a run can see, by their absolute paths. A path is a list
of names from the root; the text of a path is walked name by name, from the root if it
begins with a slash and otherwise from the working directory.

* `FileTree.resolve` finds the place that a text leads to;
* `namesBelow?` is what a text has below a root, whether there is such a place or not;
* `FileTree.readText` and `FileTree.writeText` read and write a file.
-/

namespace Versioning

/-- The names on the way from the root to a place. -/
abbrev Place := List String

/-- What is at a place. -/
inductive FileNode where
  | file (bytes : ByteArray)
  | directory

/-- Files are compared by their bytes. -/
instance : DecidableEq FileNode
  | .file a, .file b =>
    decidable_of_iff (a.data = b.data)
      ⟨fun h => congrArg FileNode.file (ByteArray.ext h), fun h => by cases h; rfl⟩
  | .directory, .directory => .isTrue rfl
  | .file _, .directory => .isFalse nofun
  | .directory, .file _ => .isFalse nofun

/-- The files and directories, by place; the root itself is always there. -/
structure FileTree where
  entries : List (Place × FileNode)
  deriving DecidableEq

/-- Splits a text at every slash. -/
def splitSlashes : List Char → List (List Char)
  | [] => [[]]
  | c :: rest =>
    if c = '/' then [] :: splitSlashes rest
    else
      match splitSlashes rest with
      | [] => [[c]]
      | part :: parts => (c :: part) :: parts

/-- The names in the text of a path, empty ones included. -/
def pathNames (path : String) : List String :=
  (splitSlashes path.toList).map String.ofList

/-- Whether the text of a path begins at the root. -/
def isAbsolute (path : String) : Bool :=
  path.toList.head? == some '/'

/-- Whether a name in the text of a path leads to where one is already: an empty one, as between two
    slashes, or a dot. -/
def isIdleName (name : String) : Bool :=
  name == "" || name == "."

/-- Drops the idle names at both ends. Those in between stay. -/
def trimNames (names : List String) : List String :=
  ((names.dropWhile isIdleName).reverse.dropWhile isIdleName).reverse

/-- What the names of a path have below a root. The root is found name by name, but the rest is
    left as it is written, up to its ends. -/
def namesBelow? : (root : Place) → (names : List String) → Option (List String)
  | [], names => some (trimNames names)
  | _ :: _, [] => none
  | first :: root, name :: names =>
    if isIdleName name then namesBelow? (first :: root) names
    else if name == first then namesBelow? root names
    else none

/-- The names of a path that tell it from other paths: empty ones do not count, and a dot only at
    the beginning. -/
def pathKey (path : String) : Place :=
  let names := pathNames path
  let significant := names.filter fun name => !isIdleName name
  match names with
  | "." :: _ => "." :: significant
  | "" :: _ :: _ => "/" :: significant
  | _ => significant

namespace FileTree

/-- No files. -/
def empty : FileTree :=
  ⟨[]⟩

/-- What is at a place. -/
def get? (tree : FileTree) (place : Place) : Option FileNode :=
  if place.isEmpty then some .directory else tree.entries.lookup place

/-- Puts a node at a place, instead of what was there. -/
def set (tree : FileTree) (place : Place) (node : FileNode) : FileTree :=
  ⟨(place, node) :: tree.entries.filter fun e => e.1 != place⟩

/-- The tree with a directory at a place, and one at each place on the way that has nothing yet. -/
def addDirectory (tree : FileTree) (place : Place) : FileTree :=
  ((List.range (place.length + 1)).map place.take).foldl (fun tree place =>
    if (tree.get? place).isSome then tree else tree.set place .directory) tree

/-- The tree with a file, in directories that are made where they are missing. -/
def addFile (tree : FileTree) (place : Place) (bytes : ByteArray) : FileTree :=
  (tree.addDirectory place.dropLast).set place (.file bytes)

/-- Walks names from a place. Only directories can be left by a name. -/
def walk (tree : FileTree) : Place → List String → Except ReadFailure Place
  | here, [] => .ok here
  | here, name :: rest =>
    match tree.get? here with
    | none => .error .missing
    | some (.file _) => .error .notDirectory
    | some .directory =>
      if name = "" || name = "." then tree.walk here rest
      else if name = ".." then tree.walk here.dropLast rest
      else if (tree.get? (here ++ [name])).isSome then tree.walk (here ++ [name]) rest
      else .error .missing

/-- The place that the text of a path leads to, from a working directory. -/
def resolve (tree : FileTree) (directory : Place) (path : String) : Except ReadFailure Place :=
  if path = "" then .error .missing
  else tree.walk (if isAbsolute path then [] else directory) (pathNames path)

/-- Whether there is something at a path. -/
def existsAt (tree : FileTree) (directory : Place) (path : String) : Bool :=
  (tree.resolve directory path).toOption.isSome

/-- The text of a file. -/
def readText (tree : FileTree) (directory : Place) (path : String) :
    Except ReadFailure String := do
  let place ← tree.resolve directory path
  match tree.get? place with
  | some (.file bytes) =>
    match String.fromUTF8? bytes with
    | some text => .ok text
    | none => .error .notText
  | some .directory => .error .directory
  | none => .error .missing

/-- The place at which a file of a path is written: it is a file already, or it is missing from a
    directory that is there. A path that ends in a slash names a directory. -/
def writablePlace (tree : FileTree) (directory : Place) (path : String) :
    Except ReadFailure Place := do
  if path = "" then .error .missing
  let names := pathNames path
  let significant := (names.reverse.dropWhile (· == "")).reverse
  match significant.getLast? with
  | none => .error .directory
  | some name =>
    let parent ← tree.walk (if isAbsolute path then [] else directory) significant.dropLast
    match tree.get? parent with
    | none => .error .missing
    | some (.file _) => .error .notDirectory
    | some .directory =>
      if name == "." || name == ".." || significant.length < names.length then .error .directory
      else if tree.get? (parent ++ [name]) = some .directory then .error .directory
      else .ok (parent ++ [name])

/-- Writes a file, and tells where it is. -/
def writeText (tree : FileTree) (directory : Place) (path text : String) :
    Except ReadFailure (Place × FileTree) := do
  let place ← tree.writablePlace directory path
  return (place, tree.set place (.file text.toUTF8))

end FileTree

end Versioning
