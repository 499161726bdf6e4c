import Versioning.CommandLine.Run
import Versioning.Config.Search
import Versioning.Pattern
import Versioning.Registry
import Versioning.Repository.Log
import Versioning.Resolution.Resolver
import Versioning.Main
import Versioning.Proofs.History.Paging
import Versioning.Proofs.History.Capped
import Versioning.Proofs.Repository.LatestRelease
import Versioning.Proofs.Resolution.Marker
import Versioning.Proofs.Resolution.Releasing
import Versioning.Proofs.Resolution.Fallback
import Versioning.Proofs.Resolution.Completeness
import Versioning.Proofs.Repository.Directory
import Versioning.Proofs.Policy.Conventional
import Versioning.Proofs.Resolution.Stopping
import Versioning.Proofs.Resolution.Inquiry
import Versioning.Proofs.Resolution.Continuity
import Versioning.Proofs.Policy.Development
import Versioning.Proofs.Resolution.Progress
import Versioning.Proofs.Resolution.Acceptance
import Versioning.Proofs.Resolution.Settings
import Versioning.Proofs.Policy.Repeatable
import Versioning.Proofs.Resolution.Reordering
import Versioning.Proofs.Resolution.Change
import Versioning.Proofs.Resolution.Answers
import Versioning.Proofs.CommandLine.Writing
import Versioning.Proofs.CommandLine.DryRun
import Versioning.Proofs.Toml.Strings
import Versioning.Proofs.Toml.Documents
import Versioning.Proofs.Registry.Kept
import Versioning.Proofs.Resolution.Phases
import Versioning.Proofs.Resolution.Refusal
import Versioning.Proofs.Resolution.Override
import Versioning.Proofs.Resolution.Conversation
import Versioning.Proofs.Resolution.Terminal
import Versioning.Proofs.Version.Legible
import Versioning.Proofs.Version.Raising
import Versioning.Proofs.Version.Timestamp
import Versioning.Proofs.Rules.Messages
import Versioning.Proofs.Rules.Tags
import Versioning.Proofs.Policy.Extension
import Versioning.Proofs.Resolution.Searching
import Versioning.Proofs.Registry.Layout
import Versioning.Proofs.Resolution.UnknownPolicy
import Versioning.Proofs.Repository.Pages
import Versioning.Proofs.Error.Context
import Versioning.Proofs.Config.Overrides
