import Mathlib.Data.List.Nodup
import Versioning.Proofs.Resolution.Settings
import Versioning.Proofs.Resolution.Turn

/-!
# Versions that are given in advance

A configuration can give a version in several places, some of which are only read for the first
module. The first of these settings that says something is the version that counts
(`Config.Gives`), and nothing else does: it is taken as it is, or it is refused, without a look at
the policy, the change log, the operator or the registry (`Resolver.given_taken_or_refused`).
-/

namespace Versioning

namespace Config

/-- Where the version of a module in a phase may be given, in the order in which it counts. -/
def ownSettings (config : Config) (phase : Phase) (id : ModuleId) : List (Option String) :=
  match phase with
  | .release => [config.releaseVersions.get? id.text]
  | .development => [config.developmentVersions.get? id.text]
  | .branch => [config.branchVersions.get? id.text]
  | .workingCopy =>
    [config.workingCopyVersions.get? id.text, config.developmentVersions.get? id.text]

/-- Where the version of the first module in a phase may be given, too. -/
def firstSettings (config : Config) : Phase → List (Option String)
  | .release => [config.defaultReleaseVersion?]
  | .development => [config.defaultDevelopmentVersion?]
  | .workingCopy => [config.defaultDevelopmentVersion?]
  | .branch => [config.defaultBranchVersion?, config.defaultReleaseVersion?]

/-- All settings for a module, which may be the first one. -/
def settings (config : Config) (phase : Phase) (id : ModuleId) (first : Bool) :
    List (Option String) :=
  config.ownSettings phase id ++ if first then config.firstSettings phase else []

/-- The first setting for a module that says something is this version. -/
def Gives (config : Config) (phase : Phase) (id : ModuleId) (first : Bool) (version : String) :
    Prop :=
  ∃ before after, config.settings phase id first = before ++ some version :: after ∧
    (∀ setting ∈ before, Unset setting) ∧ Text.isBlank version = false

variable (config : Config) (phase : Phase)

theorem nonBlank?_eq_some_iff {setting? : Option String} {version : String} :
    nonBlank? setting? = some version ↔ setting? = some version ∧ Text.isBlank version = false := by
  simp [nonBlank?, Option.filter_eq_some_iff]

theorem findSome?_pair (a b : Option String) :
    [a, b].findSome? nonBlank? = (nonBlank? a).or (nonBlank? b) := by
  rw [List.findSome?_cons, List.findSome?_singleton]
  cases nonBlank? a <;> rfl

theorem explicitVersion?_eq_findSome? (id : ModuleId) :
    config.explicitVersion? phase id = (config.ownSettings phase id).findSome? nonBlank? := by
  cases phase <;>
    simp only [explicitVersion?, ownSettings, findSome?_pair, List.findSome?_singleton]

theorem defaultVersion?_eq_findSome? :
    config.defaultVersion? phase = (config.firstSettings phase).findSome? nonBlank? := by
  cases phase <;>
    simp only [defaultVersion?, firstSettings, findSome?_pair, List.findSome?_singleton]

end Config

namespace Resolver

open Resolve (Turn Writes)

variable {resolver : Resolver} {phase : Phase} {m : Module} {version : String}

/-- Only what the settings give is a fixed version. -/
theorem fixedVersion?_eq_some_iff {first : Bool} :
    resolver.fixedVersion? phase m first = some version ↔
      resolver.config.Gives phase m.id first version := by
  have hsettings : resolver.fixedVersion? phase m first =
      (resolver.config.settings phase m.id first).findSome? Config.nonBlank? := by
    rw [fixedVersion?, Config.explicitVersion?_eq_findSome?, Config.settings, List.findSome?_append]
    cases first
    · rfl
    · exact congrArg _ (Config.defaultVersion?_eq_findSome? _ phase)
  rw [hsettings, List.findSome?_eq_some_iff]
  constructor
  · rintro ⟨before, setting?, after, hsplit, hsetting, hbefore⟩
    obtain ⟨rfl, hblank⟩ := Config.nonBlank?_eq_some_iff.1 hsetting
    refine ⟨before, after, hsplit, fun setting? hmem => ?_, hblank⟩
    exact Config.nonBlank?_eq_none_iff.1 (hbefore setting? hmem)
  · rintro ⟨before, after, hsplit, hbefore, hblank⟩
    refine ⟨before, _, after, hsplit, Config.nonBlank?_eq_some_iff.2 ⟨rfl, hblank⟩, ?_⟩
    exact fun setting? hmem => Config.nonBlank?_eq_none_iff.2 (hbefore setting? hmem)

/-- What comes of a version that is given for a module. -/
def verdict (phase : Phase) (m : Module) (version : String) : Except Failure String :=
  if isSnapshot version = phase.expectsSnapshot then .ok version
  else .error (.error (.inModule m.id.text phase (.invalidVersion version phase.expectsSnapshot)))

/-- A fixed version is only checked. -/
theorem nextVersion_of_fixed {first : Bool}
    (hchanges : ¬resolver.keepsCurrent phase m.version = true)
    (hfixed : resolver.fixedVersion? phase m first = some version) :
    resolver.nextVersion phase m first = (do
      let version ← checked phase version
      Resolve.report .debug (m.id.text ++ " " ++ phase.name ++ " version set to " ++ version)
      return version) := by
  rw [nextVersion, if_neg hchanges, hfixed]

/-- So it leads to the same verdict and the same messages in every session, and nothing else changes
    in the session. -/
theorem exists_run_resolveModule_of_fixed (phase : Phase) (m : Module) (version : String) :
    ∃ messages : List Message, ∀ (resolver : Resolver) (first : Bool) (s : Session),
      ¬resolver.keepsCurrent phase m.version = true →
      resolver.fixedVersion? phase m first = some version →
        (resolver.resolveModule phase m first).run s = (verdict phase m version,
          { s with journal := { s.journal with messages := messages ++ s.journal.messages } }) := by
  by_cases hmarker : isSnapshot version = phase.expectsSnapshot
  · refine ⟨[⟨.debug, m.id.text ++ " " ++ phase.name ++ " version set to " ++ version⟩], ?_⟩
    intro resolver first s hchanges hfixed
    rw [resolveModule, Resolve.run_mapError, nextVersion_of_fixed hchanges hfixed, checked,
      if_pos hmarker, verdict, if_pos hmarker]
    rfl
  · refine ⟨[], fun resolver first s hchanges hfixed => ?_⟩
    rw [resolveModule, Resolve.run_mapError, nextVersion_of_fixed hchanges hfixed, checked,
      if_neg hmarker, verdict, if_neg hmarker]
    rfl

/-! ### In a phase -/

/-- Modules on their own are resolved one part after the other. -/
theorem resolveEach_append (first : Bool) (done rest : List Module) :
    resolver.resolveEach phase first (done ++ rest) = (do
      resolver.resolveEach phase first done
      resolver.resolveEach phase (first && done.isEmpty) rest) := by
  induction done generalizing first with
  | nil => simp [resolveEach]
  | cons m done ih => simp [resolveEach, ih]

section Own

variable {done rest : List Module} {s t : Session}
  (hown : resolver.config.autoVersionSubmodules = true → done = [])
  (hdone : (resolver.resolveEach phase true done).run s = (.ok (), t))

include hown hdone

/-- The phase ends with the error of a module that is resolved on its own, -/
theorem run_resolve_of_error {failure : Failure} {u : Session}
    (h : (resolver.resolveModule phase m done.isEmpty).run t = (.error failure, u)) :
    (resolver.resolve phase (done ++ m :: rest)).run s = (.error failure, u) := by
  by_cases hauto : resolver.config.autoVersionSubmodules = true
  · obtain rfl := hown hauto
    cases hdone
    rw [List.nil_append, resolve, if_pos hauto, Failure.run_bind]
    rw [List.isEmpty_nil] at h
    rw [h]
  · rw [resolve_of_not_auto hauto, resolveEach_append, Bool.true_and, Failure.run_bind, hdone]
    dsimp only
    rw [resolveEach, Failure.run_bind, h]

/-- and keeps its version if the place for it was free. -/
theorem get?_resolve_of_ok
    (h : ((resolver.resolveModule phase m done.isEmpty).run t).1 = .ok version)
    (hfree : t.registry.get? m.id phase = none) :
    ((resolver.resolve phase (done ++ m :: rest)).run s).2.registry.get? m.id phase =
      some version := by
  by_cases hauto : resolver.config.autoVersionSubmodules = true
  · obtain rfl := hown hauto
    cases hdone
    have hlead := (run_leading m (rest.length + 1)).trans h
    exact (resolver.resolve_turn_of_auto phase hauto m rest s).get?_of_free
      (resolver.propagate_writes · rest) hlead hfree
  · rw [resolve_of_not_auto hauto, resolveEach_append, Bool.true_and, Failure.run_bind, hdone]
    exact (resolver.resolveEach_turn phase _ m rest t).get?_of_free
      (fun _ => resolver.resolveEach_writes false rest) h hfree

end Own

/-- If the settings give a version for a module that is resolved on its own and that the phase does
    not leave alone, this is its version, provided that it carries the marker as the phase expects
    it; otherwise there is no version, and the error says so. It is the same in an interactive run
    and in a batch run, under any policy, with any change log, operator and registry: none of them
    is asked, and nothing but messages is added before the version is recorded. -/
theorem given_taken_or_refused (done rest : List Module)
    (hchanges : ¬resolver.keepsCurrent phase m.version = true)
    (hown : resolver.config.autoVersionSubmodules = true → done = [])
    (hgiven : resolver.config.Gives phase m.id done.isEmpty version) :
    (∃ messages : List Message, ∀ (interactive : Bool) (policy : String)
      (policyConfig? : Option Toml.Table) (policies : Policies) (log? : Option ChangeLog)
      (s : Session),
      let config := { resolver.config with interactive, policy, policyConfig? }
      (Resolver.resolveModule ⟨config, policies, log?⟩ phase m done.isEmpty).run s =
        (verdict phase m version,
          { s with journal := { s.journal with messages := messages ++ s.journal.messages } })) ∧
    ∀ s t, (resolver.resolveEach phase true done).run s = (.ok (), t) →
      (isSnapshot version = phase.expectsSnapshot → t.registry.get? m.id phase = none →
        ((resolver.resolve phase (done ++ m :: rest)).run s).2.registry.get? m.id phase =
          some version) ∧
      (isSnapshot version ≠ phase.expectsSnapshot →
        ((resolver.resolve phase (done ++ m :: rest)).run s).1 = .error (.error
          (.inModule m.id.text phase (.invalidVersion version phase.expectsSnapshot)))) := by
  have hfixed := fixedVersion?_eq_some_iff.2 hgiven
  obtain ⟨messages, hrun⟩ := exists_run_resolveModule_of_fixed phase m version
  refine ⟨⟨messages, fun interactive policy policyConfig? policies log? s => ?_⟩, ?_⟩
  · exact hrun ⟨_, policies, log?⟩ done.isEmpty s hchanges hfixed
  · intro s t hdone
    have hmodule := hrun resolver done.isEmpty t hchanges hfixed
    refine ⟨fun hmarker hfree => ?_, fun hmarker => ?_⟩
    · rw [verdict, if_pos hmarker] at hmodule
      exact get?_resolve_of_ok hown hdone (congrArg Prod.fst hmodule) hfree
    · rw [verdict, if_neg hmarker] at hmodule
      exact congrArg Prod.fst (run_resolve_of_error hown hdone hmodule)

/-- A blank version for the working copy, so that the one under development counts. The default of
    the run is for the module before; the policy does not exist, and nobody answers. -/
theorem given_taken_in_working_copy :
    let resolver : Resolver := ⟨{
      policy := "none"
      defaultDevelopmentVersion? := some "3.0-SNAPSHOT"
      workingCopyVersions := .ofList [("g:web", " ")]
      developmentVersions := .ofList [("g:web", "2.0-SNAPSHOT")] }, .builtin, none⟩
    let core : Module := .ofId ⟨"g", "core"⟩ "1.0-SNAPSHOT"
    let web : Module := .ofId ⟨"g", "web"⟩ "1.0-SNAPSHOT"
    let run := (resolver.resolve .workingCopy [core, web]).run (.start (.scripted []))
    ¬resolver.keepsCurrent .workingCopy web.version = true ∧
      resolver.config.Gives .workingCopy web.id false "2.0-SNAPSHOT" ∧
      run.2.registry.get? ⟨"g", "web"⟩ .workingCopy = some "2.0-SNAPSHOT" ∧ run.2.asked = [] := by
  intro resolver core web run
  have hchanges : ¬resolver.keepsCurrent .workingCopy web.version = true := by decide
  have hgiven : resolver.config.Gives .workingCopy web.id false "2.0-SNAPSHOT" := by
    exact ⟨[some " "], [], by decide +kernel, by decide +kernel, by decide +kernel⟩
  obtain ⟨-, hphase⟩ := given_taken_or_refused [core] [] hchanges nofun hgiven
  let before := (resolver.resolveEach .workingCopy true [core]).run (.start (.scripted []))
  have hok : before.1 = .ok () := by decide +kernel
  have hdone : before = (.ok (), before.2) := Prod.ext hok rfl
  refine ⟨hchanges, hgiven, ?_, by decide +kernel⟩
  exact (hphase _ _ hdone).1 (by decide +kernel) (by decide +kernel)

end Resolver

end Versioning
