import Versioning.Config.Reader
import Versioning.FileTree

/-!
# Finding the configuration

The configuration is read from the file that is asked for. Otherwise it is looked for
in the working directory and then in the directory of the user's settings; without
any file, everything has its default.
-/

namespace Versioning.Config

/-- The name of the file that is looked for. -/
def fileName : String := "release-versions.toml"

/-- The file to read, if there is one. -/
def path? (tree : FileTree) (directory : Place) (settings? requested? : Option String) :
    Option String :=
  let candidate (path : String) : Option String :=
    if tree.existsAt directory path then some path else none
  match requested? with
  | some path => some path
  | none =>
    (candidate ("./" ++ fileName)).or (settings?.bind fun settings =>
      candidate (settings ++ "/" ++ fileName))

/-- Reads the configuration. -/
def load (tree : FileTree) (directory : Place) (settings? requested? : Option String) :
    Except ReleaseError Config :=
  match path? tree directory settings? requested? with
  | none => .ok {}
  | some path =>
    match tree.readText directory path with
    | .ok text => ofText text
    | .error failure => .error (.config (.unreadable path failure))

end Versioning.Config
