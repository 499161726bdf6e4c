import Versioning.Proofs.Policy.Development
import Versioning.Proofs.Resolution.Continuity

/-!
# Versions move forward

When a release is run without an operator and no development version is fixed, the policy has
the last word about the version to go on with. A built-in policy goes on with the next minor
version after the one that it is asked for, and that is the released one. So every module is
developed further as the next minor version after its own release
(`Resolver.development_follows_release`), also where the version of the first module is given to
all and the others have had no turn at all.
-/

namespace Versioning.Resolver

variable {resolver : Resolver} {phase : Phase} {m : Module}

/-! ### What is decided after a release -/

/-- In a batch run, a version that is neither left alone nor fixed is what the policy proposes after
    the released one. -/
theorem DecidedFrom.proposed (hbatch : resolver.config.interactive = false) {policy : Policy}
    (hpolicy : resolver.policies.get resolver.config.policy = .ok policy)
    (hphase : phase.expectsSnapshot = true)
    (hchanges : ¬resolver.keepsCurrent phase m.version = true)
    (hfree : ∀ first, resolver.fixedVersion? phase m first = none) {registry : Registry}
    {release version : String} (hrelease : resolver.ReleasedAs registry m release)
    (h : resolver.DecidedFrom phase registry m version) :
    ∃ j, ((policy.propose phase (resolver.request m release)).run j).1 = .ok version := by
  obtain ⟨first, t, t', hsame, hrun⟩ := h
  -- The released version is the same in the session in which the policy is asked.
  have hother : Phase.release ≠ phase := by
    rintro rfl
    cases hphase
  rw [resolveModule, Resolve.run_mapError_eq_ok_iff] at hrun
  obtain ⟨hasked, -⟩ := nextVersion_proposed hbatch hchanges (hfree first) hrun
  rw [hrelease.baseVersion hphase (hsame m.id .release hother)] at hasked
  exact ⟨t.journal, (askPolicy_inquires hpolicy hasked).2⟩

/-- Where no development version is fixed for a module nor for the run, there is none for the turn
    of the module. -/
theorem fixedVersion?_development_eq_none
    (hdefault : resolver.config.defaultVersion? .development = none)
    (hexplicit : resolver.config.explicitVersion? .development m.id = none) (first : Bool) :
    resolver.fixedVersion? .development m first = none := by
  rw [fixedVersion?, hexplicit, hdefault, ite_self, Option.or_none]

/-! ### A run -/

/-- A run that makes no branch is a release and then a development phase. -/
theorem run_execute_of_release (hbranch : resolver.config.branchCreation = false)
    {reactor : List Module} {s t : Session}
    (h : (resolver.execute reactor).run s = (.ok (), t)) :
    ∃ released, (resolver.resolve .release reactor).run s = (.ok (), released) ∧
      (resolver.resolve .development reactor).run released = (.ok (), t) := by
  have hphases : resolver.config.phases = (.release, .development) := by
    rw [Config.phases, hbranch]
    rfl
  rw [execute, hphases] at h
  obtain ⟨_, released, hrelease, h⟩ := Failure.run_bind_eq_ok_iff.1 h
  obtain ⟨_, developed, hdevelopment, h⟩ := Failure.run_bind_eq_ok_iff.1 h
  cases h
  exact ⟨released, hrelease, hdevelopment⟩

/-- In a batch run that makes a release under a built-in policy, and for which no development
    version is fixed, every module of the reactor goes on with the next minor version after the one
    that it is released as, under development and without a qualifier. -/
theorem development_follows_release (hbatch : resolver.config.interactive = false)
    (hpolicy : resolver.config.policy ∈ Policies.defaultId :: Policies.conventionalIds)
    (hbuiltin : resolver.policies.get resolver.config.policy =
      Policies.builtin.get resolver.config.policy)
    (hbranch : resolver.config.branchCreation = false)
    (hupdate : resolver.config.updateWorkingCopyVersions = true)
    (hdefault : resolver.config.defaultVersion? .development = none) {reactor : List Module}
    (hexplicit : ∀ m ∈ reactor, resolver.config.explicitVersion? .development m.id = none)
    {operator : Operator} {s : Session}
    (h : (resolver.execute reactor).run (.start operator) = (.ok (), s)) :
    ∀ m ∈ reactor, ∃ release development r d,
      s.registry.get? m.id .release = some release ∧
      s.registry.get? m.id .development = some development ∧
      Version.parse? release = some r ∧ Version.parse? development = some d ∧
      d.snapshot = true ∧ d.qualifier? = none ∧
      d.triple = [r.major.toNat, r.minor.toNat + 1, 0] ∧ r.triple < d.triple := by
  intro m hm
  obtain ⟨released, hs, ht⟩ := run_execute_of_release hbranch h
  obtain ⟨policy, hget, hgoesOn⟩ := Policies.builtin_goesOn hpolicy
  have hchanges (m : Module) : ¬resolver.keepsCurrent .development m.version = true := by
    simp [keepsCurrent, hupdate]
  -- The module whose turn decides about this one was released as the same version.
  obtain ⟨release, hrecorded, hrelease⟩ := exists_released hs hm
  obtain ⟨development, hdecided, -, hdeveloped⟩ := resolve_decided ht hm
  rw [propagated, if_neg (hchanges m)] at hdeveloped
  -- In its turn a version is proposed, and that is the one which this module gets.
  obtain ⟨j, hproposed⟩ := hdecided.proposed hbatch (hbuiltin.trans hget) rfl (hchanges _)
    (fixedVersion?_development_eq_none hdefault (hexplicit _ (decider_mem hm))) hrelease
  obtain ⟨r, d, hr, hd, hsnapshot, hqualifier, htriple⟩ := hgoesOn _ j development hproposed
  have hkept : s.registry.get? m.id .release = some release :=
    (resolver.resolve_writes .development reactor).kept ht hrecorded
  have hlater : r.triple < d.triple := by
    rw [htriple]
    exact Version.triple_lt_raise BumpLevel.noConfusion r
  exact ⟨release, development, r, d, hkept, hdeveloped, hr, hd, hsnapshot, hqualifier, htriple,
    hlater⟩

/-- A module that is given the version of its parent for the release is given that of the parent for
    the development as well, and this is the later one. -/
theorem development_follows_release_of_parent :
    let resolver : Resolver :=
      ⟨{ interactive := false, autoVersionSubmodules := true }, .builtin, none⟩
    let reactor : List Module := [.ofId ⟨"g", "parent"⟩ "1.4-beta-SNAPSHOT", .ofId ⟨"g", "api"⟩ "7"]
    let run := (resolver.execute reactor).run (.start (.scripted []))
    resolver.config.interactive = false ∧
      resolver.config.policy ∈ Policies.defaultId :: Policies.conventionalIds ∧
      resolver.policies.get resolver.config.policy = Policies.builtin.get resolver.config.policy ∧
      resolver.config.branchCreation = false ∧
      resolver.config.updateWorkingCopyVersions = true ∧
      resolver.config.defaultVersion? .development = none ∧
      (∀ m ∈ reactor, resolver.config.explicitVersion? .development m.id = none) ∧
      run.1 = .ok () ∧
      run.2.registry.get? ⟨"g", "api"⟩ .release = some "1.4-beta" ∧
      run.2.registry.get? ⟨"g", "api"⟩ .development = some "1.5-SNAPSHOT" ∧
      ∃ r d, Version.parse? "1.4-beta" = some r ∧ Version.parse? "1.5-SNAPSHOT" = some d ∧
        r.triple < d.triple := by
  intro resolver reactor run
  have hexplicit : ∀ m ∈ reactor, resolver.config.explicitVersion? .development m.id = none :=
    fun _ _ => rfl
  have hok : run.1 = .ok () := by decide +kernel
  have hrelease : run.2.registry.get? ⟨"g", "api"⟩ .release = some "1.4-beta" := by decide +kernel
  have hdevelopment : run.2.registry.get? ⟨"g", "api"⟩ .development = some "1.5-SNAPSHOT" := by
    decide +kernel
  obtain ⟨release, development, r, d, hrelease', hdevelopment', hr, hd, -, -, -, hlater⟩ :=
    development_follows_release rfl List.mem_cons_self rfl rfl rfl rfl hexplicit
      (Prod.ext hok rfl : run = (.ok (), run.2)) (.ofId ⟨"g", "api"⟩ "7") (by simp [reactor])
  cases hrelease.symm.trans hrelease'
  cases hdevelopment.symm.trans hdevelopment'
  exact ⟨rfl, List.mem_cons_self, rfl, rfl, rfl, rfl, hexplicit, hok, hrelease, hdevelopment, r, d,
    hr, hd, hlater⟩

end Versioning.Resolver
