import Versioning.Proofs.Resolution.Override
import Versioning.Proofs.Resolution.Refusal
import Versioning.Proofs.Text.ByteOrder

/-!
# Unknown policies

Which policy is configured only counts for the modules that need a proposal. Up to the first of
them a phase is resolved as with any other policy; there, if no policy has the id, it ends with an
error that says so, before anything is asked of anybody (`Resolver.unknown_policy_reported`). The
error is not taken for one about the format of a version, and so there is no second attempt.

A built-in policy never makes a run end with such an error: its own errors are about something else
(`ReleaseError.OfProposal`), and so are those of the registry, the prompt and the marker.
-/

namespace Versioning

/-- The ids of the policies come once each, in the order of their bytes. -/
theorem Policies.pairwise_ids (policies : Policies) :
    policies.ids.Pairwise fun a b => Text.bytes a < Text.bytes b := by
  rw [ids, OrderedMap.keys, List.pairwise_map]
  exact policies.byId.ascending.imp Text.compare_eq_lt_iff.1

/-- The errors of a built-in policy are about something else than the policy. -/
theorem Policy.propose_ofProposal {policy : Policy}
    (hpolicy : policy = markerOnly ∨ policy = conventional) (phase : Phase)
    (request : PolicyRequest) :
    Consult.Ends (policy.propose phase request) (fun _ => True) ReleaseError.OfProposal := by
  by_cases hphase : phase.expectsSnapshot = true
  · rw [propose_of_expectsSnapshot _ hphase]
    exact (development_ends request hpolicy).mono fun _ _ => trivial
  · obtain rfl : phase = .release := by simpa [Phase.expectsSnapshot] using hphase
    rw [propose_release]
    rcases hpolicy with rfl | rfl
    · exact (release_markerOnly_ends request).mono fun _ _ => trivial
    · exact (Conventional.release_ends request).mono fun _ _ => trivial

namespace Resolver

open Resolve (FailsWith)

variable {resolver : Resolver} {phase : Phase} {m : Module} {first : Bool}

variable (resolver) in
/-- The same resolver with other policies, and with another one of them chosen. -/
def withPolicy (policies : Policies) (id : String) : Resolver :=
  { resolver with policies, config := { resolver.config with policy := id } }

variable (resolver phase m first) in
/-- The module is not left alone, and no version is fixed for it. -/
def NeedsProposal : Prop :=
  resolver.keepsCurrent phase m.version = false ∧ resolver.fixedVersion? phase m first = none

instance : Decidable (resolver.NeedsProposal phase m first) :=
  inferInstanceAs (Decidable (_ ∧ _))

variable (resolver phase) in
/-- None of the modules needs a proposal. -/
def NoneNeedsProposal : (first : Bool) → List Module → Prop
  | _, [] => True
  | first, m :: rest => ¬resolver.NeedsProposal phase m first ∧ NoneNeedsProposal false rest

variable (resolver phase) in
/-- If some module needs a proposal, there is a first one. -/
theorem noneNeedsProposal_or (first : Bool) (modules : List Module) :
    resolver.NoneNeedsProposal phase first modules ∨
      ∃ before m rest, modules = before ++ m :: rest ∧
        resolver.NoneNeedsProposal phase first before ∧
        resolver.NeedsProposal phase m (first && before.isEmpty) := by
  induction modules generalizing first with
  | nil => exact .inl trivial
  | cons m rest ih =>
    by_cases hneeds : resolver.NeedsProposal phase m first
    · exact .inr ⟨[], m, rest, rfl, trivial, by simpa using hneeds⟩
    · obtain hnone | ⟨before, m', rest', rfl, hnone, hneeds'⟩ := ih false
      · exact .inl ⟨hneeds, hnone⟩
      · exact .inr ⟨m :: before, m', rest', rfl, ⟨hneeds, hnone⟩, by simpa using hneeds'⟩

variable (resolver) in
/-- The modules whose versions are decided: all of them, or only the one that the others follow. -/
def decided (reactor : List Module) : List Module :=
  if resolver.config.autoVersionSubmodules then reactor.take 1 else reactor

/-! ### Up to the first proposal -/

/-- A version that the phase leaves alone is only reported. -/
theorem nextVersion_of_kept (h : resolver.keepsCurrent phase m.version = true) :
    resolver.nextVersion phase m first = (do
      Resolve.report .debug (m.id.text ++ " keeps " ++ phase.name ++ " version " ++ m.version)
      return m.version) := by
  rw [nextVersion, if_pos h]

/-- Without a proposal, the policy does not count for a module, -/
theorem resolveModule_withPolicy (h : ¬resolver.NeedsProposal phase m first)
    (policies : Policies) (id : String) :
    (resolver.withPolicy policies id).resolveModule phase m first =
      resolver.resolveModule phase m first := by
  rw [resolveModule, resolveModule]
  cases hkept : resolver.keepsCurrent phase m.version with
  | true =>
    have hkept' : (resolver.withPolicy policies id).keepsCurrent phase m.version = true := hkept
    rw [nextVersion_of_kept hkept, nextVersion_of_kept hkept']
  | false =>
    have hchanges : ¬resolver.keepsCurrent phase m.version = true := by simp [hkept]
    have hchanges' : ¬(resolver.withPolicy policies id).keepsCurrent phase m.version = true :=
      hchanges
    cases hversion : resolver.fixedVersion? phase m first with
    | some version =>
      have hversion' : (resolver.withPolicy policies id).fixedVersion? phase m first =
        some version := hversion
      rw [nextVersion_of_fixed hchanges hversion, nextVersion_of_fixed hchanges' hversion']
    | none => exact absurd ⟨hkept, hversion⟩ h

/-- nor for several of them. -/
theorem resolveEach_withPolicy {modules : List Module}
    (h : resolver.NoneNeedsProposal phase first modules) (policies : Policies) (id : String) :
    (resolver.withPolicy policies id).resolveEach phase first modules =
      resolver.resolveEach phase first modules := by
  induction modules generalizing first with
  | nil => rfl
  | cons m rest ih =>
    rw [resolveEach, resolveEach, resolveModule_withPolicy h.1, ih h.2]

theorem propagate_withPolicy (policies : Policies) (id version : String) (modules : List Module) :
    (resolver.withPolicy policies id).propagate phase version modules =
      resolver.propagate phase version modules := by
  induction modules with
  | nil => rfl
  | cons m rest ih =>
    rw [propagate, propagate, ih]
    rfl

/-- If no proposal is needed, the phase is the same with any other policy. -/
theorem resolve_withPolicy {reactor : List Module}
    (h : resolver.NoneNeedsProposal phase true (resolver.decided reactor)) (policies : Policies)
    (id : String) :
    (resolver.withPolicy policies id).resolve phase reactor = resolver.resolve phase reactor := by
  have hauto : (resolver.withPolicy policies id).config.autoVersionSubmodules =
      resolver.config.autoVersionSubmodules := rfl
  cases reactor with
  | nil => rfl
  | cons leader rest =>
    rw [resolve, resolve, hauto]
    rw [decided] at h
    split
    · next hleader =>
      rw [if_pos hleader] at h
      rw [resolveModule_withPolicy h.1]
      simp only [propagate_withPolicy]
    · next hleader =>
      rw [if_neg hleader] at h
      exact resolveEach_withPolicy h policies id

/-! ### The first proposal -/

section Unknown

variable {e : ReleaseError} (hunknown : resolver.policies.get resolver.config.policy = .error e)
include hunknown

/-- If the policy is unknown, the turn of a module that needs a proposal is nothing but the error. -/
theorem resolveModule_of_unknown (hneeds : resolver.NeedsProposal phase m first) :
    resolver.resolveModule phase m first = Resolve.fail (.inModule m.id.text phase e) := by
  have hsuggest (s : Session) :
      (resolver.suggest phase m first).run s = (.error (.error e), s) := by
    rw [run_suggest_of_final] <;> rw [run_askPolicy_of_unknown hunknown]
    rintro _ ⟨⟩
    exact isVersionFormat_of_unknown hunknown
  have hrun (s : Session) : (resolver.resolveModule phase m first).run s =
      (.error (.error (.inModule m.id.text phase e)), s) := by
    rw [resolveModule, Resolve.run_mapError, nextVersion, if_neg (by simp [hneeds.1]), hneeds.2]
    dsimp only
    rw [Failure.run_bind, hsuggest]
    rfl
  exact funext hrun

/-- A phase is resolved up to the first module that needs a proposal, and fails there. -/
theorem resolve_of_unknown {reactor before rest : List Module}
    (hdecided : resolver.decided reactor = before ++ m :: rest)
    (hneeds : resolver.NeedsProposal phase m before.isEmpty) :
    resolver.resolve phase reactor = (do
      resolver.resolveEach phase true before
      Resolve.fail (.inModule m.id.text phase e)) := by
  have hfails {α : Type} (f : String → Resolve α) :
      (resolver.resolveModule phase m before.isEmpty >>= f) =
        Resolve.fail (.inModule m.id.text phase e) := by
    rw [resolveModule_of_unknown hunknown hneeds]
    rfl
  rw [decided] at hdecided
  split at hdecided
  · next hauto =>
    cases reactor with
    | nil => cases before <;> cases hdecided
    | cons leader others =>
      -- The others follow the first one.
      cases before with
      | cons _ before => cases before <;> cases hdecided
      | nil =>
        cases hdecided
        rw [resolve, if_pos hauto, ← List.isEmpty_nil, hfails]
        rfl
  · next hauto =>
    subst hdecided
    rw [resolve_of_not_auto hauto, resolveEach_append, Bool.true_and, resolveEach, hfails]

end Unknown

/-! ### Known policies -/

/-- No error of a run with a built-in policy says that the policy is unknown. -/
theorem executePhases_isPolicyNotFound {policy : Policy}
    (hknown : resolver.policies.get resolver.config.policy = .ok policy)
    (hpolicy : policy = .markerOnly ∨ policy = .conventional) (reactor : List Module)
    (phases : List Phase) :
    FailsWith (resolver.executePhases reactor phases) fun e => e.isPolicyNotFound = false := by
  have hproposal {e : ReleaseError} (h : e.OfProposal) : e.isPolicyNotFound = false := by
    rw [ReleaseError.isPolicyNotFound]
    rw [ReleaseError.OfProposal] at h
    generalize e.rootCause.kind = kind at h
    cases h <;> rfl
  refine executePhases_failsWith (fun fault => rfl) fun phase _ m _ first => ?_
  refine resolveModule_failsWith (nextVersion_failsWith (fun e he => ?_) ?_)
  · show (e.rootCause.kind == .policyNotFound) = false
    rcases he with he | he <;> rw [he] <;> rfl
  · refine suggest_failsWith (fun base s e he => ?_) fun text e he => he
    rw [askPolicy_outcome hknown] at he
    exact hproposal ((Policy.propose_ofProposal hpolicy phase _ s.journal).2 e he)

/-- If no policy has the id that is configured, a phase goes on as with any other policy as long as
    no module needs a proposal. The turn of the first one that does leaves the session as it is, and
    the phase ends there with an error about this module whose root cause is that the policy is
    unknown, with the ids that there are. With a built-in policy no run ends with such an error. -/
theorem unknown_policy_reported (resolver : Resolver) :
    (resolver.policies.byId.get? resolver.config.policy = none →
      ∀ (phase : Phase) (reactor : List Module),
        (resolver.NoneNeedsProposal phase true (resolver.decided reactor) ∧ ∀ policies id,
          resolver.resolve phase reactor = (resolver.withPolicy policies id).resolve phase reactor) ∨
        ∃ before m rest, resolver.decided reactor = before ++ m :: rest ∧
          resolver.NoneNeedsProposal phase true before ∧
          resolver.NeedsProposal phase m before.isEmpty ∧
          let unknown : ReleaseError :=
            .policyNotFound resolver.config.policy resolver.policies.ids
          let e : ReleaseError := .inModule m.id.text phase unknown
          (∀ policies id, resolver.resolve phase reactor = (do
            (resolver.withPolicy policies id).resolveEach phase true before
            Resolve.fail e)) ∧
          (∀ s, (resolver.resolveModule phase m before.isEmpty).run s = (.error (.error e), s)) ∧
          e.rootCause = unknown ∧ e.isPolicyNotFound = true ∧ e.isVersionFormat = false) ∧
    (resolver.policies.ids.Nodup ∧
      (resolver.policies.ids.Pairwise fun a b => Text.bytes a < Text.bytes b) ∧
      ∀ id, id ∈ resolver.policies.ids ↔ ∃ policy, resolver.policies.byId.get? id = some policy) ∧
    ∀ policy, resolver.policies.get resolver.config.policy = .ok policy →
      policy = .markerOnly ∨ policy = .conventional →
      ∀ (reactor : List Module) (phases : List Phase) (s : Session) (e : ReleaseError),
        ((resolver.executePhases reactor phases).run s).1 = .error (.error e) →
          e.isPolicyNotFound = false := by
  refine ⟨fun hfree phase reactor => ?_, ⟨resolver.policies.byId.nodup_keys,
    resolver.policies.pairwise_ids, resolver.policies.byId.mem_keys_iff⟩,
    fun policy hknown hpolicy => executePhases_isPolicyNotFound hknown hpolicy⟩
  have hunknown : resolver.policies.get resolver.config.policy =
      .error (.policyNotFound resolver.config.policy resolver.policies.ids) := by
    rw [Policies.get, hfree]
  obtain hnone | ⟨before, m, rest, hdecided, hnone, hneeds⟩ :=
    resolver.noneNeedsProposal_or phase true (resolver.decided reactor)
  · exact .inl ⟨hnone, fun policies id => (resolve_withPolicy hnone policies id).symm⟩
  · rw [Bool.true_and] at hneeds
    refine .inr ⟨before, m, rest, hdecided, hnone, hneeds, fun policies id => ?_, fun s => ?_,
      rfl, rfl, rfl⟩
    · rw [resolve_of_unknown hunknown hdecided hneeds, resolveEach_withPolicy hnone]
    · rw [resolveModule_of_unknown hunknown hneeds]
      rfl

/-- The first module has a version that is given, and the operator would answer for the second one;
    but the policy does not exist. With the one that is built in, the run ends because the second
    version cannot be read. -/
theorem unknown_policy_of_web :
    let resolver : Resolver :=
      ⟨{ policy := "none", releaseVersions := .ofList [("g:core", "1.0")] }, .builtin, none⟩
    let known : Resolver := ⟨{ interactive := false }, .builtin, none⟩
    let core : Module := .ofId ⟨"g", "core"⟩ "1.0-SNAPSHOT"
    let web : Module := .ofId ⟨"g", "web"⟩ "two"
    let e : ReleaseError :=
      .policyNotFound "none" ["CCSemVerVersionPolicy", "ccsemver", "default"]
    let unreadable : ReleaseError := .inModule "g:web" .release (.policy
      ("Error parsing version, cannot determine next version: " ++
        "Version parsing error: Invalid version format: 'two'") (.versionFormat (.unreadable "two")))
    let run := (resolver.resolve .release [core, web]).run (.start (.scripted ["2.0"]))
    let knownRun := (known.executePhases [web] [.release]).run (.start (.scripted []))
    resolver.policies.byId.get? resolver.config.policy = none ∧
      run.1 = .error (.error (.inModule "g:web" .release e)) ∧ run.2.asked = [] ∧
      run.2.registry.get? core.id .release = some "1.0" ∧
      known.policies.get known.config.policy = .ok .markerOnly ∧
      knownRun.1 = .error (.error unreadable) ∧ unreadable.isPolicyNotFound = false := by
  intro resolver known core web e unreadable run knownRun
  have hfree : resolver.policies.byId.get? resolver.config.policy = none :=
    Option.isNone_iff_eq_none.1 (by decide +kernel)
  have hcore : ¬resolver.NeedsProposal .release core true := by decide +kernel
  have hweb : resolver.NeedsProposal .release web false := by decide +kernel
  have hknown : Policies.builtin.get Policies.defaultId = .ok .markerOnly := rfl
  have hunreadable : knownRun.1 = .error (.error unreadable) := by decide +kernel
  refine ⟨hfree, ?_, by decide +kernel, by decide +kernel, hknown, hunreadable,
    (unknown_policy_reported known).2.2 .markerOnly hknown (.inl rfl) _ _ _ _ hunreadable⟩
  obtain ⟨⟨-, hnone, -⟩, -⟩ | ⟨before, m, rest, hsplit, hnone, hneeds, hresolve, -⟩ :=
    (unknown_policy_reported resolver).1 hfree .release [core, web]
  · exact absurd hweb hnone
  · have hdecided : [core, web] = before ++ m :: rest := hsplit
    rcases before with _ | ⟨first, _ | ⟨second, before⟩⟩
    · cases hdecided
      exact absurd hneeds hcore
    · cases hdecided
      show ((resolver.resolve .release [core, web]).run _).1 = _
      rw [hresolve .empty ""]
      decide +kernel
    · simp at hdecided

end Resolver

end Versioning
