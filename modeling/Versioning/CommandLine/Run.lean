import Versioning.CommandLine.Options
import Versioning.Config.Search
import Versioning.Repository.Log
import Versioning.Resolution.Resolver

/-!
# A run of the command line

A run loads the configuration, lets the options overrule it, resolves the versions of
the modules and writes them to a file. Everything that it can see is its `World`, and
all that it does is its `Outcome`; nothing is written unless every phase was resolved.

* `Run.prepare` is what happens before any version is resolved;
* `Run.run` is the whole run.
-/

namespace Versioning

/-- What a run can see. -/
structure World where
  files : FileTree
  /-- The working directory. -/
  directory : Place
  /-- The directory of the user's settings. -/
  settings? : Option String
  repository? : Option Repository
  /-- What is typed at the terminal. -/
  input : String

/-- What a run does: its exit code, what it prints, and the file that it writes. -/
structure Outcome where
  code : Nat
  output : String
  errors : String
  written? : Option (Place × String) := none
  /-- What is to be told about how the versions were resolved. -/
  diagnostics : List Message := []
  /-- Whether the run ended because nothing was left of the input when it asked the operator. -/
  inputEnded : Bool := false
  deriving DecidableEq

namespace Run

/-- Why a run ends early: an error with what it was about, or an overflow. -/
inductive Stop where
  | failed (context : List String)
  | overflow
  deriving DecidableEq

/-- The texts of an error and of all causes behind it. -/
def chain (e : ReleaseError) : List String :=
  e.message :: e.sources.map ReleaseError.Source.message

/-- Ends the run with an error. -/
def orStop {α : Type} (context : List String) : Except ReleaseError α → Except Stop α
  | .ok a => .ok a
  | .error e => .error (.failed (context ++ chain e))

/-- The configuration with the changes that the options ask for. -/
def overrule (options : Options) (config : Config) : Config :=
  { config with
    interactive := config.interactive && !options.batch
    autoVersionSubmodules := config.autoVersionSubmodules || options.autoVersionSubmodules
    branchCreation := config.branchCreation || options.branch
    defaultReleaseVersion? := options.releaseVersion?.or config.defaultReleaseVersion?
    defaultDevelopmentVersion? := options.developmentVersion?.or config.defaultDevelopmentVersion?
    policy := options.policy?.getD config.policy }

/-- A run that is ready to resolve versions. -/
structure Prepared where
  resolver : Resolver
  reactor : List Module

/-- Loads the configuration, and makes sure that there are modules, that the policy is known, and
    that there is a repository if the policy may ask for it. -/
def prepare (world : World) (options : Options) : Except Stop Prepared := do
  let loaded ← orStop ["Error loading config"]
    (Config.load world.files world.directory world.settings? options.config?)
  let config := overrule options loaded
  let reactor ← orStop [] config.reactor
  if reactor.isEmpty then
    throw (.failed ["No modules configured; add [[modules]] entries to the configuration"])
  let _ ← orStop [] (Policies.builtin.get config.policy)
  let log? ←
    if config.policy = Policies.defaultId then pure none
    else do
      let repository ← orStop ["Unable to open the git repository"]
        (Repository.open? world.repository? world.files world.directory ".")
      pure (some (repository.log world.files world.directory))
  return ⟨⟨config, Policies.builtin, log?⟩, reactor⟩

/-- A line about what is going on. -/
def statusLine (text : String) : String :=
  "→ " ++ text ++ "\n"

/-- The line before the versions are resolved. -/
def startLine (p : Prepared) : String :=
  let phases := p.resolver.config.phases
  statusLine ("Resolving " ++ phases.1.name ++ " and " ++ phases.2.name ++ " versions for "
    ++ toString p.reactor.length ++ " module(s)")

/-- What is shown of the resolved versions. -/
def shownRegistry (registry : Registry) : String :=
  if registry.isEmpty then statusLine "No versions were resolved"
  else "\nResolved versions:\n" ++ registry.layout

/-- The outcome of a run that ends early after some output. -/
def stopped (output : String) : Stop → Outcome
  | .failed context =>
    { code := 1, output, errors := "ERROR: " ++ ": ".intercalate context ++ "\n" }
  | .overflow => { code := 101, output, errors := overflowMessage ++ "\n" }

/-- Resolves the versions from the input of the terminal: the session at the end, and whether all
    went well. -/
def session (world : World) (p : Prepared) : Except Failure Unit × Session :=
  ((p.resolver.execute p.reactor).run (Session.start (.terminal world.input)))

/-- The outcome after the versions were resolved: they are shown and, unless it is a dry run,
    written. -/
def finish (world : World) (options : Options) (output : String) (registry : Registry) : Outcome :=
  let output := output ++ shownRegistry registry
  if options.dryRun then
    { code := 0, output := output ++ statusLine "Dry run: versions were not written", errors := "" }
  else
    let text := registry.toToml
    match world.files.writeText world.directory options.output text with
    | .ok (place, _) =>
      { code := 0, output := output ++ "✓ Versions written to " ++ options.output ++ "\n",
        errors := "", written? := some (place, text) }
    | .error failure =>
      stopped output (.failed ["Unable to write " ++ options.output, failure.message])

/-- Whether an error comes from the end of the input. -/
def endsInput (e : ReleaseError) : Bool :=
  match e.rootCause with
  | .prompt failure => failure.ended
  | _ => false

/-- What is told of the messages of a session: the warnings, or all of them if that was asked
    for. -/
def told (options : Options) (session : Session) : List Message :=
  session.journal.messages.reverse.filter fun m => options.verbose || m.severity == .warn

/-- A run with options. -/
def withOptions (world : World) (options : Options) : Outcome :=
  match prepare world options with
  | .error stop => stopped "" stop
  | .ok p =>
    let (result, session) := session world p
    let output := startLine p ++ String.join (session.asked.reverse.map Question.shown)
    let outcome := match result with
      | .error (.error e) =>
        { stopped output (.failed (chain e)) with inputEnded := endsInput e }
      | .error .overflow => stopped output .overflow
      | .ok () => finish world options output session.registry
    { outcome with diagnostics := told options session }

/-- The text about how the command is used. -/
def usage : String :=
  "Resolve release and development versions for a multi-module project\n\n"
    ++ "Usage: release-versions [OPTIONS]\n"

/-- A run with arguments. -/
def run (world : World) (arguments : List String) : Outcome :=
  match Options.ofArguments arguments with
  | .ok options => withOptions world options
  | .error .help => { code := 0, output := usage, errors := "" }
  | .error _ => { code := 2, output := "", errors := usage }

end Run

end Versioning
