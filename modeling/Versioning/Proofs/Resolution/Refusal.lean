import Versioning.Proofs.Policy.Proposal
import Versioning.Proofs.Policy.Start
import Versioning.Proofs.Resolution.Errors
import Versioning.Proofs.Resolution.Inquiry

/-!
# Why a version is refused

A version is refused if it carries the snapshot marker where it must not, or lacks it. The built-in
policies hardly ever propose such a version: what they go on with after a release carries the
marker, and the release that commits announce does not. Only the policy that drops the marker may
propose a release that still has one, since it leaves the qualifier as it is. So in a batch run all
other versions that are refused were fixed by the configuration (`Resolver.Refused`).
-/

namespace Versioning

open Consult (Ends)
open ReleaseError (OfProposal)

/-- What a built-in policy proposes carries the marker as the phase expects it, but for a release
    that is made by dropping the marker; and its errors are about something else. -/
theorem Policies.propose_ends {id : String} {policy : Policy}
    (hid : id ∈ defaultId :: conventionalIds) (hpolicy : builtin.get id = .ok policy)
    (phase : Phase) (request : PolicyRequest) :
    Ends (policy.propose phase request)
      (fun text => isSnapshot text = phase.expectsSnapshot ∨ id = defaultId ∧ phase = .release ∧
        ∃ v, Version.parse? request.version = some v ∧ text = v.toRelease.text)
      OfProposal := by
  have hdevelopment (h : policy = .markerOnly ∨ policy = .conventional)
      (hphase : phase.expectsSnapshot = true) :
      Ends (policy.propose phase request) (fun text => isSnapshot text = phase.expectsSnapshot)
        OfProposal := by
    rw [Policy.propose_of_expectsSnapshot _ hphase]
    refine (Policy.development_ends request h).mono fun text => ?_
    rintro ⟨v, hsnapshot, -, rfl⟩
    rw [Version.isSnapshot_text hsnapshot, hphase]
  rcases builtin_get hid with ⟨hdefault, hget⟩ | ⟨-, hget⟩
  · obtain rfl : policy = .markerOnly := Except.ok.inj (hpolicy.symm.trans hget)
    by_cases hphase : phase.expectsSnapshot = true
    · exact (hdevelopment (.inl rfl) hphase).mono fun _ => .inl
    · obtain rfl : phase = .release := by simpa [Phase.expectsSnapshot] using hphase
      rw [Policy.propose_release]
      exact (Policy.release_markerOnly_ends request).mono fun _ htext => .inr ⟨hdefault, rfl, htext⟩
  · obtain rfl : policy = .conventional := Except.ok.inj (hpolicy.symm.trans hget)
    refine Ends.mono (P := fun text => isSnapshot text = phase.expectsSnapshot) ?_ fun _ => .inl
    by_cases hphase : phase.expectsSnapshot = true
    · exact hdevelopment (.inr rfl) hphase
    · obtain rfl : phase = .release := by simpa [Phase.expectsSnapshot] using hphase
      rw [Policy.propose_release]
      refine (Policy.Conventional.release_ends request).mono fun text => ?_
      rintro ⟨v, rfl⟩
      exact v.isSnapshot_strictText

namespace Resolver

open Resolve (FailsWith)

variable {resolver : Resolver} {phase : Phase} {m : Module}

variable (resolver phase m) in
/-- The versions that may be refused for a module: one that is fixed for the module, or for the run
    where there is none for the module, and a release that is made by dropping the marker. -/
inductive Refused : String → Prop
  | explicit {version : String} : resolver.config.explicitVersion? phase m.id = some version →
    Refused version
  | default {version : String} : resolver.config.explicitVersion? phase m.id = none →
    resolver.config.defaultVersion? phase = some version → Refused version
  | released {v : Version} : resolver.config.policy = Policies.defaultId → phase = .release →
    Version.parse? m.version = some v → Refused v.toRelease.text

/-- A fixed version is one of these. -/
theorem Refused.of_fixedVersion? {first : Bool} {version : String}
    (h : resolver.fixedVersion? phase m first = some version) :
    resolver.Refused phase m version := by
  rw [fixedVersion?] at h
  cases hexplicit : resolver.config.explicitVersion? phase m.id with
  | some own =>
    rw [hexplicit] at h
    cases h
    exact .explicit hexplicit
  | none =>
    rw [hexplicit, Option.none_or] at h
    split at h
    · exact .default hexplicit h
    · cases h

/-- An error about a module says that one of these versions lacks the right marker, or it is one of
    the proposal, which has nothing to do with markers. -/
def RefusesOnly (resolver : Resolver) (phase : Phase) (m : Module) (e : ReleaseError) : Prop :=
  e.OfProposal ∨ ∃ version, e = .invalidVersion version phase.expectsSnapshot ∧
    isSnapshot version ≠ phase.expectsSnapshot ∧ resolver.Refused phase m version

theorem checked_refusesOnly {version : String}
    (h : isSnapshot version = phase.expectsSnapshot ∨ resolver.Refused phase m version) :
    FailsWith (checked phase version) (resolver.RefusesOnly phase m) := by
  rw [checked]
  split
  · exact .pure _
  · next hmarker => exact .fail (.inr ⟨version, rfl, hmarker, h.resolve_left hmarker⟩)

section Builtin

variable (hbatch : resolver.config.interactive = false)
  (hpolicy : resolver.config.policy ∈ Policies.defaultId :: Policies.conventionalIds)
  (hbuiltin : resolver.policies.get resolver.config.policy =
    Policies.builtin.get resolver.config.policy)

include hpolicy hbuiltin

theorem suggest_ofProposal (first : Bool) :
    FailsWith (resolver.suggest phase m first) OfProposal := by
  refine suggest_failsWith (fun base s e he => ?_) fun text e he => he
  obtain ⟨policy, hget, -⟩ := Policies.builtin_goesOn hpolicy
  rw [askPolicy_outcome (hbuiltin.trans hget)] at he
  exact (Policies.propose_ends hpolicy hget phase _ s.journal).2 e he

include hbatch

/-- A proposal carries the right marker, or is a release that is made by dropping it. -/
theorem refused_of_suggest {first : Bool} {s : Session} {version : String}
    (h : ((resolver.suggest phase m first).run s).1 = .ok version) :
    isSnapshot version = phase.expectsSnapshot ∨ resolver.Refused phase m version := by
  obtain ⟨policy, hget, -⟩ := Policies.builtin_goesOn hpolicy
  have hasked := congrArg Prod.fst (run_suggest_of_batch hbatch (Prod.ext h rfl))
  rw [askPolicy_outcome (hbuiltin.trans hget)] at hasked
  refine ((Policies.propose_ends hpolicy hget phase _ s.journal).1 version hasked).imp_right ?_
  rintro ⟨hdefault, rfl, v, hv, rfl⟩
  exact .released hdefault rfl hv

theorem nextVersion_refusesOnly (first : Bool) :
    FailsWith (resolver.nextVersion phase m first) (resolver.RefusesOnly phase m) := by
  rw [nextVersion]
  split
  · exact (FailsWith.report _ _).bind fun _ => .pure _
  · split
    · next version hfixed =>
      refine (checked_refusesOnly (.inr (.of_fixedVersion? hfixed))).bind fun _ => ?_
      exact (FailsWith.report _ _).bind fun _ => .pure _
    · have hsuggest : FailsWith (resolver.suggest phase m first) OfProposal :=
        suggest_ofProposal hpolicy hbuiltin first
      refine (hsuggest.mono fun _ => .inl).bind_of fun s version hversion => ?_
      rw [if_neg (by simp [hbatch])]
      exact checked_refusesOnly (refused_of_suggest hbatch hpolicy hbuiltin hversion)

end Builtin

/-- The release that commits announce is written strictly and without the marker, and what a
    built-in policy goes on with is read as a version under development without a qualifier. So if
    a batch run ends because a version lacks the right marker, then the version was fixed by the
    configuration, or it is a release that was made by dropping the marker. -/
theorem refused_only_if_fixed :
    (∀ (request : PolicyRequest) (j : Journal) (text : String),
      ((Policy.conventional.release request).run j).1 = .ok text →
        Version.IsStrict text ∧ isSnapshot text = false) ∧
    (∀ (policy : Policy) (request : PolicyRequest) (j : Journal) (text : String),
      policy = .markerOnly ∨ policy = .conventional →
      ((policy.development request).run j).1 = .ok text →
        isSnapshot text = true ∧ ∃ v, Version.parse? text = some v ∧ v.snapshot = true ∧
          v.qualifier? = none) ∧
    ∀ (resolver : Resolver), resolver.config.interactive = false →
      resolver.config.policy ∈ Policies.defaultId :: Policies.conventionalIds →
      resolver.policies.get resolver.config.policy = Policies.builtin.get resolver.config.policy →
      ∀ (reactor : List Module) (phases : List Phase) (s : Session) (e : ReleaseError),
        ((resolver.executePhases reactor phases).run s).1 = .error (.error e) →
        e.rootCause.kind = .invalidVersion →
          ∃ phase ∈ phases, ∃ m ∈ reactor, ∃ version,
            e = .inModule m.id.text phase (.invalidVersion version phase.expectsSnapshot) ∧
            isSnapshot version ≠ phase.expectsSnapshot ∧ resolver.Refused phase m version := by
  refine ⟨fun request j text h => ?_, fun policy request j text hpolicy h => ?_, ?_⟩
  · obtain ⟨v, rfl⟩ := (Policy.Conventional.release_ends request j).1 text h
    exact ⟨v.isStrict_strictText, v.isSnapshot_strictText⟩
  · obtain ⟨v, hsnapshot, hqualifier, rfl⟩ := (Policy.development_ends request hpolicy j).1 text h
    exact ⟨Version.isSnapshot_text hsnapshot, v, Version.parse?_text hqualifier, hsnapshot,
      hqualifier⟩
  · intro resolver hbatch hpolicy hbuiltin reactor phases
    refine executePhases_failsWith (fun fault => nofun) fun phase hphase m hm first => ?_
    refine resolveModule_failsWith ?_
    refine (nextVersion_refusesOnly hbatch hpolicy hbuiltin first).mono fun e he hkind => ?_
    have hmarkers : ¬e.OfProposal := fun hproposal => by
      have : ErrorKind.OfProposal .invalidVersion := hkind ▸ hproposal
      cases this
    obtain ⟨version, rfl, hmarker, hrefused⟩ := he.resolve_left hmarkers
    exact ⟨phase, hphase, m, hm, version, rfl, hmarker, hrefused⟩

/-- After a fix the release is announced as a step, and a version under development follows it; but
    the one that is given for the module lacks the marker, so the run ends. -/
theorem refused_as_given :
    let log : ChangeLog := .ofHistory [⟨"fix: a", []⟩]
    let request : PolicyRequest := ⟨"01.2-SNAPSHOT", ".", some log, none, .default⟩
    let resolver : Resolver :=
      ⟨{ interactive := false, developmentVersions := .ofList [("g:app", "2.0")] }, .builtin, none⟩
    let reactor : List Module := [.ofId ⟨"g", "app"⟩ "1.0-SNAPSHOT"]
    let run := (resolver.executePhases reactor [.release, .development]).run (.start (.scripted []))
    ((Policy.conventional.release request).run .empty).1 = .ok "1.2.0" ∧
      Version.IsStrict "1.2.0" ∧
      ((Policy.markerOnly.development request).run .empty).1 = .ok "1.3-SNAPSHOT" ∧
      isSnapshot "1.3-SNAPSHOT" = true ∧
      resolver.config.interactive = false ∧
      resolver.config.policy ∈ Policies.defaultId :: Policies.conventionalIds ∧
      resolver.policies.get resolver.config.policy = Policies.builtin.get resolver.config.policy ∧
      run.1 = .error (.error (.inModule "g:app" .development (.invalidVersion "2.0" true))) ∧
      ∃ phase ∈ [Phase.release, .development], ∃ m ∈ reactor, resolver.Refused phase m "2.0" := by
  intro log request resolver reactor run
  obtain ⟨hstrict, hmarked, hrefused⟩ := refused_only_if_fixed
  have hrelease : ((Policy.conventional.release request).run .empty).1 = .ok "1.2.0" := by
    decide +kernel
  have hnext : ((Policy.markerOnly.development request).run .empty).1 = .ok "1.3-SNAPSHOT" := by
    decide +kernel
  have hpolicy : resolver.config.policy ∈ Policies.defaultId :: Policies.conventionalIds := by
    decide
  have hrun : run.1 =
      .error (.error (.inModule "g:app" .development (.invalidVersion "2.0" true))) := by
    decide +kernel
  obtain ⟨phase, hphase, m, hm, version, he, -, hversion⟩ :=
    hrefused resolver rfl hpolicy rfl reactor _ _ _ hrun rfl
  obtain rfl : "2.0" = version :=
    (ReleaseError.invalidVersion.inj (ReleaseError.inModule.inj he).2.2).1
  exact ⟨hrelease, (hstrict _ _ _ hrelease).1, hnext, (hmarked _ _ _ _ (.inl rfl) hnext).1, rfl,
    hpolicy, rfl, hrun, phase, hphase, m, hm, hversion⟩

end Resolver

end Versioning
