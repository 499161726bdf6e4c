import Versioning.Phase
import Versioning.Pattern.Fault
import Versioning.Text.Quoted

/-!
# What can go wrong

Every way in which a release can fail is a `ReleaseError`. Some errors only give
context to another one, which is their *source*; the error at the end of the
context given by modules and policies is the *root cause*, and it decides what
kind of failure it is.

* `ReleaseError.message` is the text of an error, `ReleaseError.sources` are the
  causes behind it, outermost first;
* `ReleaseError.rootCause` looks through the context.
-/

namespace Versioning

/-- A failure to read input. -/
structure InputFailure where
  /-- Whether the input has ended; otherwise something else is wrong. -/
  ended : Bool
  message : String
  deriving DecidableEq, Repr

/-- A failure to read a file. -/
inductive ReadFailure where
  | missing | directory | notDirectory | notText
  deriving DecidableEq, Repr

/-- What a failure to read a file says. -/
def ReadFailure.message : ReadFailure → String
  | .missing => "No such file or directory (os error 2)"
  | .directory => "Is a directory (os error 21)"
  | .notDirectory => "Not a directory (os error 20)"
  | .notText => "stream did not contain valid UTF-8"

/-- A failure of the version control system. -/
inductive RepositoryFault where
  | notFound (path : String)
  | unbornHead
  deriving DecidableEq, Repr

/-- What a failure of the version control system says. -/
def RepositoryFault.message : RepositoryFault → String
  | .notFound path => "could not find repository at '" ++ path ++ "'"
  | .unbornHead => "reference 'refs/heads/master' not found"

/-- What can be wrong with a configuration. -/
inductive ConfigFault where
  | unreadable (path : String) (cause : ReadFailure)
  /-- The document is not well formed, or a value is not what its key asks for. -/
  | document (detail : String)
  | moduleId (text : String)
  | pattern (source : String) (fault : Pattern.Fault)
  | rules (detail : String)
  | stated (detail : String)
  deriving DecidableEq, Repr

/-- What a configuration fault says. -/
def ConfigFault.message : ConfigFault → String
  | .unreadable path cause => "Unable to read " ++ path ++ ": " ++ cause.message
  | .document detail => "TOML parse error: " ++ detail
  | .moduleId text => "Module id '" ++ text ++ "' is not of the form group:artifact"
  | .pattern source fault => "Invalid pattern '" ++ source ++ "': " ++ fault.message
  | .rules detail => "Unable to load the rules config: " ++ detail
  | .stated detail => detail

/-- Why a version could not be written into the registry. -/
inductive RegistryFault where
  | alreadySet (phase : Phase) (moduleId existing : String)
  | stated (detail : String)
  deriving DecidableEq, Repr

/-- What a registry fault says. -/
def RegistryFault.message : RegistryFault → String
  | .alreadySet phase moduleId existing =>
    phase.name ++ " version of '" ++ moduleId ++ "' is already set to " ++ existing
  | .stated detail => detail

/-- A text that is no version. -/
inductive VersionFault where
  | unreadable (text : String)
  | stated (detail : String)
  deriving DecidableEq, Repr

/-- What a version fault says. -/
def VersionFault.message : VersionFault → String
  | .unreadable text => "Invalid version format: '" ++ text ++ "'"
  | .stated detail => detail

/-- An error of a release. -/
inductive ReleaseError where
  | policyNotFound (id : String) (available : List String)
  | versionFormat (fault : VersionFault)
  /-- A version carries the snapshot marker where it must not, or lacks it. -/
  | invalidVersion (version : String) (expectedSnapshot : Bool)
  | policy (message : String) (source : ReleaseError)
  | scm (message : String)
  | scmCausedBy (message : String) (source : ReleaseError)
  | unresolvedHead (fault : RepositoryFault)
  | ambiguousTag (versions : List String)
  | prompt (failure : InputFailure)
  | inModule (moduleId : String) (phase : Phase) (source : ReleaseError)
  | config (fault : ConfigFault)
  | registry (fault : RegistryFault)
  | repository (fault : RepositoryFault)
  | io (failure : InputFailure)
  deriving DecidableEq, Repr

/-- The kinds of errors. -/
inductive ErrorKind where
  | policyNotFound | versionFormat | invalidVersion | policy | scm | ambiguousTag | prompt
  | inModule | config | registry | repository | io
  deriving DecidableEq, Repr

namespace ReleaseError

/-- The kind of an error. -/
def kind : ReleaseError → ErrorKind
  | policyNotFound _ _ => .policyNotFound
  | versionFormat _ => .versionFormat
  | invalidVersion _ _ => .invalidVersion
  | policy _ _ => .policy
  | scm _ => .scm
  | scmCausedBy _ _ => .scm
  | unresolvedHead _ => .scm
  | ambiguousTag _ => .ambiguousTag
  | prompt _ => .prompt
  | inModule _ _ _ => .inModule
  | config _ => .config
  | registry _ => .registry
  | repository _ => .repository
  | io _ => .io

/-- The text of an error. -/
def message : ReleaseError → String
  | policyNotFound id available =>
    "Policy '" ++ id ++ "' is unknown, available: " ++ ", ".intercalate available
  | versionFormat fault => "Version parsing error: " ++ fault.message
  | invalidVersion version expectedSnapshot =>
    version ++ " is invalid, expected a " ++ (if expectedSnapshot then "snapshot" else "non-snapshot")
  | policy text _ => text
  | scm text => "SCM operation failed: " ++ text
  | scmCausedBy text _ => "SCM operation failed: " ++ text
  | unresolvedHead _ => "SCM operation failed: Cannot resolve HEAD"
  | ambiguousTag versions =>
    "Most recent commit with tags has multiple version tags: " ++ Text.quotedList versions
  | prompt failure => "Error reading version from input handler: " ++ failure.message
  | inModule moduleId phase source =>
    "Cannot resolve " ++ phase.name ++ " version for '" ++ moduleId ++ "': " ++ source.message
  | config fault => "Configuration error: " ++ fault.message
  | registry fault => "Registry error: " ++ fault.message
  | repository fault => "Git operation failed: " ++ fault.message
  | io failure => "I/O error: " ++ failure.message

/-- A cause behind an error. -/
inductive Source where
  | release (error : ReleaseError)
  | input (failure : InputFailure)
  | repository (fault : RepositoryFault)

/-- The text of a cause. -/
def Source.message : Source → String
  | release error => error.message
  | input failure => failure.message
  | repository fault => fault.message

/-- The causes behind an error, outermost first. -/
def sources : ReleaseError → List Source
  | policy _ source => .release source :: source.sources
  | scmCausedBy _ source => .release source :: source.sources
  | inModule _ _ source => .release source :: source.sources
  | unresolvedHead fault => [.repository fault]
  | prompt failure => [.input failure]
  | repository fault => [.repository fault]
  | io failure => [.input failure]
  | _ => []

/-- The error behind the context given by modules and policies. -/
def rootCause : ReleaseError → ReleaseError
  | policy _ source => source.rootCause
  | inModule _ _ source => source.rootCause
  | error => error

/-- Whether the root cause is an unknown policy. -/
def isPolicyNotFound (error : ReleaseError) : Bool :=
  error.rootCause.kind == .policyNotFound

/-- Whether the root cause is a version that cannot be read or lacks the right marker. -/
def isVersionFormat (error : ReleaseError) : Bool :=
  error.rootCause.kind == .versionFormat || error.rootCause.kind == .invalidVersion

end ReleaseError

/-- How an operation can fail: with an error, or because a number exceeds the largest word, in
    which case there is no result to go on with. -/
inductive Failure where
  | error (e : ReleaseError)
  | overflow
  deriving DecidableEq, Repr

/-- What an overflow says. -/
def overflowMessage : String :=
  "attempt to add with overflow"

namespace Failure

/-! ### Computations that can fail

They have a state, which stays as it is when they fail. -/

variable {σ α β : Type} (s : σ)

/-- A computation goes on from where the one before it has come to, unless that failed. -/
theorem run_bind (x : ExceptT Failure (StateM σ) α) (f : α → ExceptT Failure (StateM σ) β) :
    (x >>= f).run s = match x.run s with
      | (.ok a, s') => (f a).run s'
      | (.error e, s') => (.error e, s') := by
  show (match x s with | (a, s') => ExceptT.bindCont f a s') = _
  rcases h : x s with ⟨_ | a, s'⟩ <;> simp only [ExceptT.run, h] <;> rfl

/-- Two computations succeed together if the second one succeeds from where the first one has. -/
theorem run_bind_eq_ok_iff {x : ExceptT Failure (StateM σ) α}
    {f : α → ExceptT Failure (StateM σ) β} {s t : σ} {b : β} :
    (x >>= f).run s = (.ok b, t) ↔
      ∃ a s', x.run s = (.ok a, s') ∧ (f a).run s' = (.ok b, t) := by
  rw [run_bind]
  constructor
  · intro h
    rcases hx : x.run s with ⟨_ | a, s'⟩ <;> rw [hx] at h
    · cases h
    · exact ⟨a, s', rfl, h⟩
  · rintro ⟨a, s', hx, hf⟩
    rw [hx]
    exact hf

/-- A handler goes on from where the computation has failed. -/
theorem run_tryCatch (x : ExceptT Failure (StateM σ) α)
    (handler : Failure → ExceptT Failure (StateM σ) α) :
    (tryCatch x handler).run s = match x.run s with
      | (.ok a, s') => (.ok a, s')
      | (.error e, s') => (handler e).run s' := by
  simp only [tryCatch, tryCatchThe, MonadExceptOf.tryCatch, ExceptT.tryCatch, ExceptT.run,
    ExceptT.mk, bind, StateT.bind]
  rcases x s with ⟨_ | a, s'⟩ <;> rfl

@[simp] theorem run_pure (a : α) :
    (pure a : ExceptT Failure (StateM σ) α).run s = (.ok a, s) := rfl

end Failure

end Versioning
