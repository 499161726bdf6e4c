import Versioning.Resolution.Resolver

/-!
# Settings that say nothing

A version that the configuration gives in advance counts only if it is not blank, and one
that is given for a module counts only for modules with that id. So two configurations
come to the same for a reactor if they differ only in blank versions and in versions for
other modules (`Config.Alike`). Every step of a run that reads such a version falls
through a blank one to the next source just as if there was none; hence the runs
are the same, step by step (`Resolver.run_executePhases_of_alike`).
-/

namespace Versioning

namespace Config

variable {a b : Option String}

/-- A setting says nothing if it is missing or blank. -/
def Unset (setting? : Option String) : Prop :=
  ∀ setting ∈ setting?, Text.isBlank setting = true

/-- Two settings come to the same if they are equal or both say nothing. -/
def SameSetting (a b : Option String) : Prop :=
  a = b ∨ Unset a ∧ Unset b

instance : DecidablePred Unset :=
  fun setting? => inferInstanceAs (Decidable (∀ setting ∈ setting?, Text.isBlank setting = true))

instance (a b : Option String) : Decidable (SameSetting a b) :=
  inferInstanceAs (Decidable (a = b ∨ Unset a ∧ Unset b))

theorem nonBlank?_eq_none_iff : nonBlank? a = none ↔ Unset a := by
  simp [nonBlank?, Unset, Option.filter_eq_none_iff]

/-- Nothing else is read off a setting than what it comes to. -/
theorem nonBlank?_eq_iff : nonBlank? a = nonBlank? b ↔ SameSetting a b := by
  constructor
  · intro h
    by_cases ha : Unset a
    · have hb : Unset b := nonBlank?_eq_none_iff.1 (h.symm.trans (nonBlank?_eq_none_iff.2 ha))
      exact .inr ⟨ha, hb⟩
    · -- A version that counts is the setting itself.
      obtain ⟨v, hv⟩ := Option.ne_none_iff_exists'.1 (mt nonBlank?_eq_none_iff.1 ha)
      have hva : a = some v := (Option.filter_eq_some_iff.1 hv).1
      have hvb : b = some v := (Option.filter_eq_some_iff.1 (h.symm.trans hv)).1
      exact .inl (hva.trans hvb.symm)
  · rintro (rfl | ⟨ha, hb⟩)
    · rfl
    · rw [nonBlank?_eq_none_iff.2 ha, nonBlank?_eq_none_iff.2 hb]

/-- Two collections of versions come to the same for some modules. What they hold under other keys
    does not matter. -/
def SameVersions (reactor : List Module) (a b : OrderedMap String String) : Prop :=
  ∀ m ∈ reactor, SameSetting (a.get? m.id.text) (b.get? m.id.text)

instance (reactor : List Module) (a b : OrderedMap String String) :
    Decidable (SameVersions reactor a b) :=
  inferInstanceAs (Decidable (∀ m ∈ reactor, SameSetting (a.get? m.id.text) (b.get? m.id.text)))

/-- Two configurations come to the same for some modules: the versions that they give in advance do,
    and all the rest is equal. -/
structure Alike (reactor : List Module) (c c' : Config) : Prop where
  rest : c' = { c with
    defaultReleaseVersion? := c'.defaultReleaseVersion?
    defaultDevelopmentVersion? := c'.defaultDevelopmentVersion?
    defaultBranchVersion? := c'.defaultBranchVersion?
    releaseVersions := c'.releaseVersions
    developmentVersions := c'.developmentVersions
    branchVersions := c'.branchVersions
    workingCopyVersions := c'.workingCopyVersions }
  defaultRelease : SameSetting c'.defaultReleaseVersion? c.defaultReleaseVersion?
  defaultDevelopment : SameSetting c'.defaultDevelopmentVersion? c.defaultDevelopmentVersion?
  defaultBranch : SameSetting c'.defaultBranchVersion? c.defaultBranchVersion?
  release : SameVersions reactor c'.releaseVersions c.releaseVersions
  development : SameVersions reactor c'.developmentVersions c.developmentVersions
  branch : SameVersions reactor c'.branchVersions c.branchVersions
  workingCopy : SameVersions reactor c'.workingCopyVersions c.workingCopyVersions

namespace Alike

variable {reactor : List Module} {c c' : Config}

/-- The version for the first module is the same in every phase, -/
theorem defaultVersion? (h : Alike reactor c c') (phase : Phase) :
    c'.defaultVersion? phase = c.defaultVersion? phase := by
  have hrelease := nonBlank?_eq_iff.2 h.defaultRelease
  have hdevelopment := nonBlank?_eq_iff.2 h.defaultDevelopment
  have hbranch := nonBlank?_eq_iff.2 h.defaultBranch
  cases phase with
  | release => exact hrelease
  | development => exact hdevelopment
  | branch => rw [Config.defaultVersion?, Config.defaultVersion?, hbranch, hrelease]
  | workingCopy => exact hdevelopment

/-- and so is the version that is fixed for a module of the reactor. -/
theorem explicitVersion? (h : Alike reactor c c') (phase : Phase) {m : Module}
    (hm : m ∈ reactor) : c'.explicitVersion? phase m.id = c.explicitVersion? phase m.id := by
  have hdevelopment := nonBlank?_eq_iff.2 (h.development m hm)
  cases phase with
  | release => exact nonBlank?_eq_iff.2 (h.release m hm)
  | development => exact hdevelopment
  | branch => exact nonBlank?_eq_iff.2 (h.branch m hm)
  | workingCopy =>
    rw [Config.explicitVersion?, Config.explicitVersion?,
      nonBlank?_eq_iff.2 (h.workingCopy m hm), hdevelopment]

end Alike

end Config

namespace Resolver

variable {reactor : List Module} {c c' : Config} {policies : Policies} {log? : Option ChangeLog}
  {phase : Phase} {m : Module}

/-! ### What is read of the configuration -/

theorem interactive_of_alike (h : Config.Alike reactor c c') : c'.interactive = c.interactive := by
  rw [h.rest]

theorem keepsCurrent_of_alike (h : Config.Alike reactor c c') (current : String) :
    Resolver.keepsCurrent ⟨c', policies, log?⟩ phase current =
      Resolver.keepsCurrent ⟨c, policies, log?⟩ phase current := by
  rw [h.rest]
  rfl

theorem fixedVersion?_of_alike (h : Config.Alike reactor c c') (hm : m ∈ reactor) (first : Bool) :
    Resolver.fixedVersion? ⟨c', policies, log?⟩ phase m first =
      Resolver.fixedVersion? ⟨c, policies, log?⟩ phase m first := by
  simp only [fixedVersion?, h.explicitVersion? phase hm, h.defaultVersion?]

theorem baseVersion_of_alike (h : Config.Alike reactor c c') (hm : m ∈ reactor) (first : Bool)
    (registry : Registry) :
    Resolver.baseVersion ⟨c', policies, log?⟩ phase m first registry =
      Resolver.baseVersion ⟨c, policies, log?⟩ phase m first registry := by
  simp only [baseVersion, h.explicitVersion? .release hm, h.defaultVersion?]

theorem askPolicy_of_alike (h : Config.Alike reactor c c') (base : String) :
    Resolver.askPolicy ⟨c', policies, log?⟩ phase m base =
      Resolver.askPolicy ⟨c, policies, log?⟩ phase m base := by
  rw [h.rest]
  rfl

theorem propagated_of_alike (h : Config.Alike reactor c c') (version : String) :
    Resolver.propagated ⟨c', policies, log?⟩ phase version m =
      Resolver.propagated ⟨c, policies, log?⟩ phase version m := by
  rw [propagated, propagated, keepsCurrent_of_alike h]

/-! ### The turn of a module -/

theorem suggest_of_alike (h : Config.Alike reactor c c') (hm : m ∈ reactor) (first : Bool) :
    Resolver.suggest ⟨c', policies, log?⟩ phase m first =
      Resolver.suggest ⟨c, policies, log?⟩ phase m first := by
  simp only [suggest, baseVersion_of_alike h hm, askPolicy_of_alike h, interactive_of_alike h]

/-- A module of the reactor gets its version in the same way: whatever gives it, a version that is
    fixed, the policy or the operator. -/
theorem resolveModule_of_alike (h : Config.Alike reactor c c') (hm : m ∈ reactor) (first : Bool) :
    Resolver.resolveModule ⟨c', policies, log?⟩ phase m first =
      Resolver.resolveModule ⟨c, policies, log?⟩ phase m first := by
  simp only [resolveModule, nextVersion, keepsCurrent_of_alike h, fixedVersion?_of_alike h hm,
    suggest_of_alike h hm, interactive_of_alike h]

/-! ### Phases -/

theorem resolveEach_of_alike (h : Config.Alike reactor c c') (first : Bool) {modules : List Module}
    (hmodules : modules ⊆ reactor) :
    Resolver.resolveEach ⟨c', policies, log?⟩ phase first modules =
      Resolver.resolveEach ⟨c, policies, log?⟩ phase first modules := by
  induction modules generalizing first with
  | nil => rfl
  | cons m rest ih =>
    have hm : m ∈ reactor := hmodules List.mem_cons_self
    have hrest : rest ⊆ reactor := List.subset_of_cons_subset hmodules
    simp only [resolveEach, resolveModule_of_alike h hm, ih false hrest]

theorem propagate_of_alike (h : Config.Alike reactor c c') (version : String)
    (modules : List Module) :
    Resolver.propagate ⟨c', policies, log?⟩ phase version modules =
      Resolver.propagate ⟨c, policies, log?⟩ phase version modules := by
  induction modules with
  | nil => rfl
  | cons m rest ih => simp only [propagate, propagated_of_alike h, ih]

theorem resolve_of_alike (h : Config.Alike reactor c c') :
    Resolver.resolve ⟨c', policies, log?⟩ phase reactor =
      Resolver.resolve ⟨c, policies, log?⟩ phase reactor := by
  cases reactor with
  | nil => rfl
  | cons leader rest =>
    have hauto : c'.autoVersionSubmodules = c.autoVersionSubmodules := by rw [h.rest]
    simp only [resolve, hauto, resolveModule_of_alike h List.mem_cons_self,
      propagate_of_alike h, resolveEach_of_alike h true (List.Subset.refl _)]

theorem executePhases_of_alike (h : Config.Alike reactor c c') (phases : List Phase) :
    Resolver.executePhases ⟨c', policies, log?⟩ reactor phases =
      Resolver.executePhases ⟨c, policies, log?⟩ reactor phases := by
  induction phases with
  | nil => rfl
  | cons phase phases ih => rw [executePhases, executePhases, resolve_of_alike h, ih]

/-- Under two configurations that differ only in blank versions and in versions for modules that do
    not take part, runs come to the same: the same result, with the same registry, after the same
    questions with the same defaults and the same requests to the change log. -/
theorem run_executePhases_of_alike (h : Config.Alike reactor c c') (policies : Policies)
    (log? : Option ChangeLog) (phases : List Phase) (operator : Operator) :
    let run := (Resolver.executePhases ⟨c, policies, log?⟩ reactor phases).run (.start operator)
    let run' := (Resolver.executePhases ⟨c', policies, log?⟩ reactor phases).run (.start operator)
    run'.1 = run.1 ∧ run'.2.registry = run.2.registry ∧ run'.2.asked = run.2.asked ∧
      run'.2.journal.requests = run.2.journal.requests := by
  intro run run'
  have hrun : run' = run := by
    show (Resolver.executePhases ⟨c', policies, log?⟩ reactor phases).run _ = run
    rw [executePhases_of_alike h]
  rw [hrun]
  exact ⟨rfl, rfl, rfl, rfl⟩

/-- A release version for another module and two blank ones: the module is released as the policy
    proposes and developed further as the operator says, just as if nothing was given. -/
theorem run_executePhases_of_blank_versions :
    let c : Config := {}
    let c' : Config :=
      { defaultReleaseVersion? := some " "
        releaseVersions := .ofList [("g:core", "\t"), ("g:web", "9.0")] }
    let reactor : List Module := [.ofId ⟨"g", "core"⟩ "1.0-SNAPSHOT"]
    let run (c : Config) :=
      (Resolver.executePhases ⟨c, .builtin, none⟩ reactor [.release, .development]).run
        (.start (.scripted ["", "2.0-SNAPSHOT"]))
    Config.Alike reactor c c' ∧ (run c').1.isOk = true ∧
      (run c').2.registry.get? ⟨"g", "core"⟩ .release = some "1.0" ∧
      (run c').2.asked.map Question.default = ["1.1-SNAPSHOT", "1.0"] := by
  intro c c' reactor run
  have halike : Config.Alike reactor c c' :=
    { rest := rfl
      defaultRelease := by decide +kernel
      defaultDevelopment := by decide
      defaultBranch := by decide
      release := by decide +kernel
      development := by decide
      branch := by decide
      workingCopy := by decide }
  obtain ⟨hresult, hregistry, hasked, -⟩ := run_executePhases_of_alike halike .builtin none
    [.release, .development] (.scripted ["", "2.0-SNAPSHOT"])
  have hok : (run c).1.isOk = true := by decide +kernel
  have hreleased : (run c).2.registry.get? ⟨"g", "core"⟩ .release = some "1.0" := by decide +kernel
  have hdefaults : (run c).2.asked.map Question.default = ["1.1-SNAPSHOT", "1.0"] := by
    decide +kernel
  exact ⟨halike, hresult ▸ hok, hregistry ▸ hreleased, hasked ▸ hdefaults⟩

end Resolver

end Versioning
