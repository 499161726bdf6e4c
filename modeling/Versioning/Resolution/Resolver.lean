import Versioning.Resolution.Session

/-!
# Resolving versions

The resolver decides the version of every module in a phase. A version that the phase
leaves alone is kept. Otherwise a version fixed by the configuration counts, then one
that is given for the first module, and then the proposal of the policy, which the
operator may overrule in an interactive run. Whatever is decided has to carry the
snapshot marker exactly if the phase expects it.

* `Resolver.nextVersion` decides the version of one module;
* `Resolver.resolve` resolves a phase for all modules and records the versions;
* `Resolver.execute` resolves several phases.
-/

namespace Versioning

/-- The version that proposals start from in an interactive run when the real one cannot be read. -/
def fallbackVersion : String := "1.0"

/-- What versions are resolved by. -/
structure Resolver where
  config : Config
  policies : Policies
  log? : Option ChangeLog

namespace Resolver

variable (resolver : Resolver)

/-- Whether a phase leaves a version alone. -/
def keepsCurrent (phase : Phase) (current : String) : Bool :=
  let config := resolver.config
  match phase with
  | .release => false
  | .development => !config.updateWorkingCopyVersions
  | .branch =>
    !(config.updateBranchVersions && (isSnapshot current || config.updateVersionsToSnapshot))
  | .workingCopy => !(isSnapshot current && config.updateWorkingCopyVersions)

/-- The version that is fixed for a module; `first` tells whether it is the first one, for which
    the defaults of the run count, too. -/
def fixedVersion? (phase : Phase) (m : Module) (first : Bool) : Option String :=
  (resolver.config.explicitVersion? phase m.id).or
    (if first then resolver.config.defaultVersion? phase else none)

/-- The version that a proposal starts from. In the phases after a release it is the released
    version, as far as that is known. -/
def baseVersion (phase : Phase) (m : Module) (first : Bool) (registry : Registry) : String :=
  if phase.expectsSnapshot then
    ((resolver.config.explicitVersion? .release m.id).or
      ((registry.get? m.id .release).or
        (if first then resolver.config.defaultVersion? .release else none))).getD m.version
  else m.version

/-- The request to the policy for a module, starting from a version. -/
def request (m : Module) (base : String) : PolicyRequest where
  version := base
  directory := m.directory
  log? := resolver.log?
  settings? := resolver.config.policyConfig?
  limits := resolver.config.mining

/-- The proposal of the policy for a module, starting from a version. -/
def askPolicy (phase : Phase) (m : Module) (base : String) : Resolve String := do
  let policy ← Resolve.ofExcept (resolver.policies.get resolver.config.policy)
  let request := resolver.request m base
  let suggestion ← Resolve.inquire phase m request
    (if phase.expectsSnapshot then policy.development request else policy.release request)
  Resolve.report .debug ("Policy '" ++ resolver.config.policy ++ "' suggests " ++ phase.name
    ++ " version " ++ suggestion ++ " for " ++ m.id.text)
  return suggestion

/-- The proposal for a module. When it fails because of the format of a version, an interactive
    run starts again from the fallback version. -/
def suggest (phase : Phase) (m : Module) (first : Bool) : Resolve String := do
  let base := resolver.baseVersion phase m first (← get).registry
  tryCatch (resolver.askPolicy phase m base) fun failure =>
    match failure with
    | .overflow => throw .overflow
    | .error e =>
      if !e.isVersionFormat then throw (.error e)
      else if resolver.config.interactive then do
        Resolve.report .warn ("Unable to parse version " ++ base ++ " of " ++ m.id.text
          ++ ", suggesting from " ++ fallbackVersion)
        resolver.askPolicy phase m fallbackVersion
      else
        Resolve.fail
          (.policy ("Error parsing version, cannot determine next version: " ++ e.message) e)

/-- A version that carries the marker exactly if the phase expects it; otherwise an error. -/
def checked (phase : Phase) (version : String) : Resolve String :=
  if isSnapshot version = phase.expectsSnapshot then return version
  else Resolve.fail (.invalidVersion version phase.expectsSnapshot)

/-- Puts a question to the operator until the answer carries the marker; a version to release must
    not carry it, and is not asked for again. -/
def converse (phase : Phase) (q : Question) : Operator → Resolve String
  | .away failure => do
    modify fun s => { s with asked := q :: s.asked }
    Resolve.fail (.prompt (failure q))
  | .present reply after => do
    modify fun s => { s with asked := q :: s.asked, operator := after q }
    match reply q with
    | .error failure => Resolve.fail (.prompt failure)
    | .ok answer =>
      if isSnapshot answer = phase.expectsSnapshot then return answer
      else if phase.expectsSnapshot then do
        Resolve.report .warn (answer ++ " is not a snapshot version, asking again")
        converse phase q (after q)
      else Resolve.fail (.invalidVersion answer false)

/-- The version of a module in a phase. -/
def nextVersion (phase : Phase) (m : Module) (first : Bool) : Resolve String :=
  if resolver.keepsCurrent phase m.version then do
    Resolve.report .debug (m.id.text ++ " keeps " ++ phase.name ++ " version " ++ m.version)
    return m.version
  else
    match resolver.fixedVersion? phase m first with
    | some version => do
      let version ← checked phase version
      Resolve.report .debug (m.id.text ++ " " ++ phase.name ++ " version set to " ++ version)
      return version
    | none => do
      let suggestion ← resolver.suggest phase m first
      if resolver.config.interactive then
        converse phase ⟨phase.question m.name m.id.text, suggestion⟩ (← get).operator
      else checked phase suggestion

/-- The version of a module in a phase; an error says for which module and phase it came up. -/
def resolveModule (phase : Phase) (m : Module) (first : Bool) : Resolve String :=
  Resolve.mapError (.inModule m.id.text phase) (resolver.nextVersion phase m first)

/-- Resolves and records the versions of some modules, each on its own. -/
def resolveEach (phase : Phase) : (first : Bool) → List Module → Resolve Unit
  | _, [] => return
  | first, m :: rest => do
    let version ← resolver.resolveModule phase m first
    Resolve.record m.id phase version
    resolveEach phase false rest

/-- The version of a module to which another one is propagated: if the phase leaves the module
    alone, it keeps its own. -/
def propagated (phase : Phase) (version : String) (m : Module) : String :=
  if resolver.keepsCurrent phase m.version then m.version else version

/-- Propagates a version to some modules. -/
def propagate (phase : Phase) (version : String) : List Module → Resolve Unit
  | [] => return
  | m :: rest => do
    Resolve.record m.id phase (resolver.propagated phase version m)
    propagate phase version rest

/-- Resolves a phase for all modules, in order: each on its own, or the first one for all. -/
def resolve (phase : Phase) (reactor : List Module) : Resolve Unit :=
  match reactor with
  | [] => return
  | m :: rest =>
    if resolver.config.autoVersionSubmodules then do
      let version ← resolver.resolveModule phase m true
      Resolve.report .info ("Using " ++ phase.name ++ " version " ++ version ++ " for all "
        ++ toString reactor.length ++ " module(s)")
      Resolve.record m.id phase version
      resolver.propagate phase version rest
    else resolver.resolveEach phase true reactor

/-- Resolves phases in order; the first failure ends it. -/
def executePhases (reactor : List Module) : List Phase → Resolve Unit
  | [] => return
  | phase :: phases => do
    resolver.resolve phase reactor
    executePhases reactor phases

/-- Resolves the phases of the configuration. -/
def execute (reactor : List Module) : Resolve Unit :=
  resolver.executePhases reactor [resolver.config.phases.1, resolver.config.phases.2]

end Resolver

end Versioning
