import Versioning.Config
import Versioning.Toml.Reader

/-!
# Reading the configuration

A configuration is a document. Keys that are missing have their defaults, and keys
that mean nothing are skipped. A value has to be of the type that its key asks for;
a group of settings may also be given as an array, in the order of its keys.

* `Config.ofTable` reads the table of a document, `Config.ofText` its text.
-/

namespace Versioning

namespace Toml

/-- The key under which a date stands where a table is asked for. -/
def datetimeKey : String := "$__toml_private_datetime"

/-- The entries of a value that has to be a table. -/
def entriesOfValue : Value → Except Fault Table
  | .table entries => .ok entries
  | .datetime t => .ok [(datetimeKey, .string t.text)]
  | _ => .error (.type "a map")

/-- The entries of a value that has to be a group of settings. -/
def settingsOfValue (keys : List String) : Value → Except Fault Table
  | .array items => .ok (keys.zip items)
  | v => entriesOfValue v

/-- A value that has to be a truth value. -/
def booleanOfValue : Value → Except Fault Bool
  | .boolean b => .ok b
  | _ => .error (.type "a boolean")

/-- A value that has to be a text. -/
def textOfValue : Value → Except Fault String
  | .string text => .ok text
  | _ => .error (.type "a string")

/-- A value that has to be a count. -/
def countOfValue : Value → Except Fault Nat
  | .integer n => if 0 ≤ n then .ok n.toNat else .error (.type "usize")
  | _ => .error (.type "usize")

/-- A value that has to be a table of texts. -/
def textsOfValue (v : Value) : Except Fault (OrderedMap String String) := do
  let entries ← entriesOfValue v
  let texts ← entries.mapM fun (key, v) => do return (key, ← textOfValue v)
  return .ofList texts

/-- The value of a key, read as its type asks for, or what stands for a missing one. -/
def Table.read {α : Type} (t : Table) (key : String) (ofValue : Value → Except Fault α)
    (default : α) : Except Fault α :=
  match t.lookup key with
  | some v => ofValue v
  | none => .ok default

/-- The value of a key that may be missing. -/
def Table.read? {α : Type} (t : Table) (key : String) (ofValue : Value → Except Fault α) :
    Except Fault (Option α) :=
  t.read key (fun v => (ofValue v).map some) none

/-- The value of a key that must not be missing. -/
def Table.require {α : Type} (t : Table) (key : String) (ofValue : Value → Except Fault α) :
    Except Fault α :=
  match t.lookup key with
  | some v => ofValue v
  | none => .error (.missing key)

end Toml

open Toml

/-- Reads how the change log is paged. -/
def MiningLimits.ofValue (v : Value) : Except Fault MiningLimits := do
  let t ← settingsOfValue ["initial_page", "page_step", "max_commits"] v
  return {
    initialPage := ← Table.read t "initial_page" countOfValue MiningLimits.default.initialPage
    pageStep := ← Table.read t "page_step" countOfValue MiningLimits.default.pageStep
    maxCommits? := ← Table.read? t "max_commits" countOfValue }

/-- Reads a module. -/
def ModuleConfig.ofValue (v : Value) : Except Fault ModuleConfig := do
  let t ← settingsOfValue ["id", "name", "version", "path"] v
  return {
    id := ← Table.require t "id" textOfValue
    name? := ← Table.read? t "name" textOfValue
    version := ← Table.require t "version" textOfValue
    path? := ← Table.read? t "path" textOfValue }

/-- Reads the modules. -/
def ModuleConfig.listOfValue : Value → Except Fault (List ModuleConfig)
  | .array items => items.mapM ModuleConfig.ofValue
  | _ => .error (.type "a sequence")

namespace Config

/-- Reads a configuration from the table of a document. -/
def ofTable (t : Table) : Except Fault Config := do
  let standard : Config := {}
  return {
    interactive := ← Table.read t "interactive" booleanOfValue standard.interactive
    autoVersionSubmodules :=
      ← Table.read t "auto_version_submodules" booleanOfValue standard.autoVersionSubmodules
    branchCreation := ← Table.read t "branch_creation" booleanOfValue standard.branchCreation
    updateBranchVersions :=
      ← Table.read t "update_branch_versions" booleanOfValue standard.updateBranchVersions
    updateWorkingCopyVersions :=
      ← Table.read t "update_working_copy_versions" booleanOfValue
        standard.updateWorkingCopyVersions
    updateVersionsToSnapshot :=
      ← Table.read t "update_versions_to_snapshot" booleanOfValue
        standard.updateVersionsToSnapshot
    policy := ← Table.read t "policy" textOfValue standard.policy
    defaultReleaseVersion? := ← Table.read? t "default_release_version" textOfValue
    defaultDevelopmentVersion? := ← Table.read? t "default_development_version" textOfValue
    defaultBranchVersion? := ← Table.read? t "default_branch_version" textOfValue
    releaseVersions := ← Table.read t "release_versions" textsOfValue .empty
    developmentVersions := ← Table.read t "development_versions" textsOfValue .empty
    branchVersions := ← Table.read t "branch_versions" textsOfValue .empty
    workingCopyVersions := ← Table.read t "working_copy_versions" textsOfValue .empty
    policyConfig? := ← Table.read? t "policy_config" entriesOfValue
    mining := ← Table.read t "mining" MiningLimits.ofValue standard.mining
    modules := ← Table.read t "modules" ModuleConfig.listOfValue [] }

/-- Reads a configuration from the text of a document. -/
def ofText (text : String) : Except ReleaseError Config :=
  ((Table.ofText? text).bind ofTable).mapError fun fault => .config (.document fault.message)

end Config

end Versioning
