import Versioning.CommandLine.Run

/-!
# The command

The outer layer of the command line. It looks at the files that a run may read or write,
hands the run the lines that the operator types, and does what the run decided.

A run is a function of the lines typed so far. As long as it ends because it needs another
one, its questions are shown, a line is read, and it is run again with that line, too;
what it showed before it shows again, so only the rest is printed.
-/

namespace Versioning.Command

/-- The path of a place. -/
def pathOf (place : Place) : String :=
  "/" ++ "/".intercalate place

/-- What is on disk at a place. -/
def nodeAt? (place : Place) : IO (Option FileNode) := do
  match ← (IO.FS.readBinFile (pathOf place)).toBaseIO with
  | .ok bytes => return some (.file bytes)
  | .error (.inappropriateType ..) => return some .directory
  | .error _ => return none

/-- Adds what is on disk on the way from a place to another one. -/
def lookFrom (tree : FileTree) (here : Place) : List String → IO FileTree
  | [] => return tree
  | name :: rest =>
    if name = "" || name = "." then lookFrom tree here rest
    else if name = ".." then lookFrom tree here.dropLast rest
    else do
      let next := here ++ [name]
      match ← nodeAt? next with
      | some node => lookFrom (tree.set next node) next rest
      | none => return tree

/-- Adds what is on disk on the way to a path. -/
def look (directory : Place) (tree : FileTree) (path : String) : IO FileTree :=
  lookFrom tree (if isAbsolute path then [] else directory) (pathNames path)

/-- The directory of the user's settings. -/
def settings? : IO (Option String) := do
  match (← IO.getEnv "XDG_CONFIG_HOME").filter isAbsolute with
  | some path => return some path
  | none => return (← IO.getEnv "HOME").map fun home => home ++ "/.config"

/-- What a run with the given options can see before anything is typed. No repository is
    among it. -/
def surroundings (options : Options) : IO World := do
  let directory := (pathNames (← IO.FS.realPath ".").toString).filter (· != "")
  let settings? ← settings?
  let candidates := ("." :: settings?.toList).map fun path => path ++ "/" ++ Config.fileName
  let paths := options.config?.toList ++ candidates ++ [options.output]
  let files ← paths.foldlM (look directory) (FileTree.empty.addDirectory directory)
  return { files, directory, settings?, repository? := none, input := "" }

/-- The part of a text that was not shown yet. -/
def unshown (text : String) (shown : Nat) : String :=
  String.ofList (text.toList.drop shown)

/-- Runs with more and more lines until no other one is needed or there is none; tells how much
    of the output was shown. -/
partial def converse (arguments : List String) (world : World) (shown : Nat) :
    IO (Outcome × Nat) := do
  let outcome := Run.run world arguments
  if !outcome.inputEnded then return (outcome, shown)
  let stdout ← IO.getStdout
  stdout.putStr (unshown outcome.output shown)
  stdout.flush
  let shown := outcome.output.length
  let line ← (← IO.getStdin).getLine
  if line.isEmpty then return (outcome, shown)
  converse arguments { world with input := world.input ++ line } shown

end Versioning.Command

open Versioning Versioning.Command in
/-- Runs the command with the arguments of the command line. -/
def main (arguments : List String) : IO UInt32 := do
  let options := (Options.ofArguments arguments).toOption.getD {}
  let (outcome, shown) ← converse arguments (← surroundings options) 0
  if let some (place, text) := outcome.written? then
    IO.FS.writeFile (pathOf place) text
  for message in outcome.diagnostics do
    IO.eprintln (message.severity.name ++ ": " ++ message.text)
  IO.print (unshown outcome.output shown)
  IO.eprint outcome.errors
  return UInt32.ofNat outcome.code
