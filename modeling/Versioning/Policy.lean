import Versioning.History
import Versioning.OrderedMap
import Versioning.Version

/-!
# Policies

A policy proposes versions: the version to release a module as, and the version to
go on with after a release. Two policies are built in.

* `Policy.markerOnly` releases a version by dropping the marker, and goes on with the next
  minor version. It keeps the count of numbers and never asks for the history.
* `Policy.conventional` starts from the latest release that the history holds and takes
  the largest step that the commit messages since then announce. Its versions always have
  three numbers.

Policies are known by ids in `Policies`.
-/

namespace Versioning

/-- All that a policy may look at. -/
structure PolicyRequest where
  /-- The version that the proposal starts from. -/
  version : String
  directory : String
  log? : Option ChangeLog
  /-- Settings that only the policy itself interprets. -/
  settings? : Option Toml.Table
  limits : MiningLimits

/-- A way to propose versions. -/
structure Policy where
  /-- The version to release the given one as. -/
  release : PolicyRequest → Consult String
  /-- The version to go on with after a release of the given one. -/
  development : PolicyRequest → Consult String

/-- Reads a version, or fails with its text. -/
def readVersion (text : String) : Consult Version :=
  match Version.parse? text with
  | some v => pure v
  | none => Consult.fail (.versionFormat (.unreadable text))

namespace Policy

/-! ## Dropping the marker -/

/-- Releases a version without its marker, and goes on with the next minor version. -/
def markerOnly : Policy where
  release request := do
    let release := (← readVersion request.version).toRelease.text
    Consult.report .debug ("Release of " ++ request.version ++ " is " ++ release)
    return release
  development request := do
    let next ← Consult.ofOption ((← readVersion request.version).bump? .minor)
    let text := next.toSnapshot.text
    Consult.report .debug ("Development after " ++ request.version ++ " is " ++ text)
    return text

/-! ## Conventional commits -/

namespace Conventional

/-- What is said about a release, depending on where it started from. -/
def releaseText (current : String) (tag? : Option String) (level : BumpLevel) (release : String) :
    String :=
  match tag?, level with
  | some tag, level =>
    "From SCM tag with version " ++ tag ++ " doing a " ++ level.name ++ " version increase to version "
      ++ release
  | none, .none =>
    "From project version " ++ current
      ++ " (no valid SCM tags, no minor/major commit messages) going to version " ++ release
  | none, level =>
    "From project version " ++ current ++ " (no valid SCM tags) doing a " ++ level.name
      ++ " version increase to version " ++ release

/-- The release after the latest one in the history, or after the current version if the history
    holds none. -/
def suggestRelease (rules : Rules) (history : CommitHistory) (current : String) : Consult String := do
  let level := history.bumpLevel rules
  let anchor := history.tag?.getD current
  Consult.report .debug ("Version rules:\n" ++ rules.text)
  Consult.report .debug ("Pom version      : " ++ current)
  Consult.report .debug ("Version from tags: " ++ history.tag?.getD "NOT FOUND")
  Consult.report .debug
    ("Step from commits: " ++ (if level = .none then "none" else level.name))
  let next ← Consult.ofOption ((← readVersion anchor).bump? level)
  let release := next.strictText
  Consult.report .info (releaseText current history.tag? level release)
  return release

/-- The next minor version, with the marker. -/
def suggestDevelopment (current : String) : Consult String := do
  let next ← Consult.ofOption ((← readVersion current).bump? .minor)
  let development := next.strictText ++ "-" ++ snapshotMarker
  Consult.report .info ("Next development version after " ++ current ++ " is " ++ development)
  return development

/-- The history that a request gives access to. -/
def history (request : PolicyRequest) (rules : Rules) : Consult CommitHistory :=
  match request.log? with
  | none => do
    Consult.report .debug "No change-log provider available, assuming an empty history"
    return .empty
  | some log =>
    Consult.mapError (.policy "Unable to obtain the information from the SCM history")
      (CommitHistory.mine log request.directory rules request.limits)

end Conventional

/-- Releases what the commit messages since the latest release announce, and goes on with the next
    minor version. -/
def conventional : Policy where
  release request := do
    let config ← Consult.ofExcept (RulesConfig.ofTable? request.settings?)
    let rules ← Consult.ofExcept (Rules.ofConfig config)
    let history ← Conventional.history request rules
    Conventional.suggestRelease rules history request.version
  development request := Conventional.suggestDevelopment request.version

/-- The policy that proposes two fixed texts, in which a pair of braces stands for the version that
    the proposal starts from. -/
def fixed (release development : String) : Policy where
  release request := return fill request.version release
  development request := return fill request.version development
where
  /-- Puts a version in the place of each pair of braces. -/
  fillChars (version : List Char) : List Char → List Char
    | '\x7b' :: '\x7d' :: rest => version ++ fillChars version rest
    | c :: rest => c :: fillChars version rest
    | [] => []
  /-- Puts a version in the place of each pair of braces. -/
  fill (version text : String) : String :=
    String.ofList (fillChars version.toList text.toList)

end Policy

/-- Policies by id. -/
structure Policies where
  byId : OrderedMap String Policy

namespace Policies

/-- No policies. -/
def empty : Policies :=
  ⟨.empty⟩

/-- The id of the policy that is used when none is chosen. -/
def defaultId : String := "default"

/-- The ids of the policy of conventional commits. -/
def conventionalIds : List String := ["ccsemver", "CCSemVerVersionPolicy"]

/-- Adds a policy, or replaces the one with its id. -/
def register (policies : Policies) (id : String) (policy : Policy) : Policies :=
  ⟨policies.byId.insert id policy⟩

/-- The built-in policies. -/
def builtin : Policies :=
  conventionalIds.foldl (fun policies id => policies.register id .conventional)
    (empty.register defaultId .markerOnly)

/-- The ids in ascending order. -/
def ids (policies : Policies) : List String :=
  policies.byId.keys

/-- The policy with an id. -/
def get (policies : Policies) (id : String) : Except ReleaseError Policy :=
  match policies.byId.get? id with
  | some policy => .ok policy
  | none => .error (.policyNotFound id policies.ids)

end Policies

end Versioning
