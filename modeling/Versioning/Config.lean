import Versioning.History
import Versioning.Module
import Versioning.OrderedMap
import Versioning.Policy

/-!
# Configuration

How a release is run: whether the operator is asked, which policy proposes versions,
which versions are fixed beforehand, and which modules take part. Versions that are
blank count as absent.

* `Config.explicitVersion?` is the version fixed for one module in a phase;
* `Config.defaultVersion?` is the version for the first module in a phase;
* `Config.reactor` are the modules.
-/

namespace Versioning

/-- A module as it is configured. -/
structure ModuleConfig where
  id : String
  name? : Option String
  version : String
  path? : Option String
  deriving DecidableEq, Repr

/-- The module; its id has to be the text of one, and its name is the artifact's by default. -/
def ModuleConfig.toModule (m : ModuleConfig) : Except ReleaseError Module :=
  match ModuleId.parse? m.id with
  | some id => .ok ⟨id, m.name?.getD id.artifact, m.version, m.path?⟩
  | none => .error (.config (.moduleId m.id))

/-- The configuration of a run. -/
structure Config where
  /-- Ask the operator to confirm every proposal. -/
  interactive : Bool := true
  /-- Give every module the version of the first one. -/
  autoVersionSubmodules : Bool := false
  /-- Make a branch instead of a release. -/
  branchCreation : Bool := false
  updateBranchVersions : Bool := false
  updateWorkingCopyVersions : Bool := true
  updateVersionsToSnapshot : Bool := false
  policy : String := Policies.defaultId
  defaultReleaseVersion? : Option String := none
  defaultDevelopmentVersion? : Option String := none
  defaultBranchVersion? : Option String := none
  /-- Versions by the texts of module ids. -/
  releaseVersions : OrderedMap String String := .empty
  developmentVersions : OrderedMap String String := .empty
  branchVersions : OrderedMap String String := .empty
  workingCopyVersions : OrderedMap String String := .empty
  /-- Settings of the policy. -/
  policyConfig? : Option Toml.Table := none
  mining : MiningLimits := .default
  modules : List ModuleConfig := []

namespace Config

/-- A version that is not blank. -/
def nonBlank? (version? : Option String) : Option String :=
  version?.filter fun v => !Text.isBlank v

/-- The version fixed for a module in a phase. In the working copy, the development version stands
    in for a missing one. -/
def explicitVersion? (config : Config) (phase : Phase) (id : ModuleId) : Option String :=
  match phase with
  | .release => nonBlank? (config.releaseVersions.get? id.text)
  | .development => nonBlank? (config.developmentVersions.get? id.text)
  | .branch => nonBlank? (config.branchVersions.get? id.text)
  | .workingCopy =>
    (nonBlank? (config.workingCopyVersions.get? id.text)).or
      (nonBlank? (config.developmentVersions.get? id.text))

/-- The version for the first module in a phase. On a branch, the release version stands in for a
    missing one. -/
def defaultVersion? (config : Config) : Phase → Option String
  | .release => nonBlank? config.defaultReleaseVersion?
  | .development => nonBlank? config.defaultDevelopmentVersion?
  | .workingCopy => nonBlank? config.defaultDevelopmentVersion?
  | .branch => (nonBlank? config.defaultBranchVersion?).or (nonBlank? config.defaultReleaseVersion?)

/-- The phases of a run, in order. -/
def phases (config : Config) : Phase × Phase :=
  if config.branchCreation then (.branch, .workingCopy) else (.release, .development)

/-- The modules in the order in which they are listed. -/
def reactor (config : Config) : Except ReleaseError (List Module) :=
  config.modules.mapM ModuleConfig.toModule

end Config

end Versioning
