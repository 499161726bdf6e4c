import Mathlib.Data.List.Nodup
import Versioning.Proofs.Policy.Start
import Versioning.Proofs.Resolution.Acceptance
import Versioning.Proofs.Version.Marker

/-!
# When a release goes through

A phase goes through if there is room for its versions and a version is decided in every turn that
is taken. Where it does not depend on the session whether a version is decided, it is the same the
other way round (`Resolver.resolve_succeeds_iff`).

In a batch run under the policy that drops the marker it does not: a module whose version can be
read is released exactly if nothing is left of the marker, which is so unless the qualifier brings
it back (`Resolver.release_succeeds_iff`).
-/

namespace Versioning

/-- Every module has a place of its own in a phase, and it is free. -/
structure Registry.HasRoom (phase : Phase) (modules : List Module) (r : Registry) : Prop where
  nodup : (modules.map (·.id)).Nodup
  free : ∀ m ∈ modules, r.get? m.id phase = none

/-- The first module can take its place, and leaves room for the others. -/
theorem Registry.HasRoom.record {phase : Phase} {m : Module} {rest : List Module} {r : Registry}
    (h : r.HasRoom phase (m :: rest)) (version : String) :
    ∃ registry, r.record m.id phase version = .ok registry ∧ registry.HasRoom phase rest := by
  obtain ⟨hnodup, hfree⟩ := h
  rw [List.map_cons, List.nodup_cons] at hnodup
  have hrecord : r.record m.id phase version = .ok (r.withVersion m.id phase version) :=
    record_eq_ok_iff.2 ⟨hfree m List.mem_cons_self, rfl⟩
  refine ⟨_, hrecord, hnodup.2, fun m' hm' => ?_⟩
  have hother : ¬(phase = phase ∧ m'.id = m.id) := fun he =>
    hnodup.1 (he.2 ▸ List.mem_map_of_mem hm')
  rw [get?_record_of_ne hrecord hother]
  exact hfree m' (List.mem_cons_of_mem _ hm')

/-- A turn in which a version is decided and has room is one in which it is recorded. -/
theorem Resolve.Turn.exists_recorded {α : Type} {decision : Resolve String} {phase : Phase}
    {next : String → Resolve α} {s : Session} {result : Except Failure α × Session} {m : Module}
    {rest : List Module} (h : Turn decision m.id phase next s result)
    (hdecided : ∃ version, (decision.run s).1 = .ok version)
    (hroom : s.registry.HasRoom phase (m :: rest)) :
    ∃ version t, t.registry.HasRoom phase rest ∧ (next version).run t = result := by
  obtain ⟨version, hversion⟩ := hdecided
  cases h with
  | undecided hrun =>
    rw [hrun] at hversion
    cases hversion
  | taken _ _ htaken => cases (hroom.free m List.mem_cons_self).symm.trans htaken
  | @recorded version' t registry _ hrun hreg hrecord hnext =>
    obtain ⟨registry', hrecord', hrest⟩ := hroom.record version'
    cases hrecord.symm.trans hrecord'
    exact ⟨version', _, hrest, hnext⟩

namespace Resolver

variable {resolver : Resolver} {phase : Phase} {s : Session}

/-! ### Phases -/

theorem resolveEach_succeeds {modules : List Module}
    (hdecided : ∀ m ∈ modules, ∀ first t, ∃ version,
      ((resolver.resolveModule phase m first).run t).1 = .ok version) {first : Bool}
    (hroom : s.registry.HasRoom phase modules) :
    ((resolver.resolveEach phase first modules).run s).1 = .ok () := by
  induction modules generalizing first s with
  | nil => rfl
  | cons m rest ih =>
    obtain ⟨_, t, hrest, hnext⟩ := (resolver.resolveEach_turn phase first m rest s).exists_recorded
      (hdecided m List.mem_cons_self first s) hroom
    rw [← hnext]
    exact ih (fun m' hm' => hdecided m' (List.mem_cons_of_mem _ hm')) hrest

/-- While a version is propagated there is nothing to decide. -/
theorem propagate_succeeds {version : String} {modules : List Module}
    (hroom : s.registry.HasRoom phase modules) :
    ((resolver.propagate phase version modules).run s).1 = .ok () := by
  induction modules generalizing s with
  | nil => rfl
  | cons m rest ih =>
    obtain ⟨_, t, hrest, hnext⟩ := (resolver.propagate_turn phase version m rest s).exists_recorded
      ⟨_, rfl⟩ hroom
    rw [← hnext]
    exact ih hrest

/-- A phase for which there is room goes through if a version is decided in every turn that decides
    about a module. -/
theorem resolve_succeeds {reactor : List Module}
    (hdecided : ∀ m ∈ reactor, ∀ first t, ∃ version,
      ((resolver.resolveModule phase (resolver.decider reactor m) first).run t).1 = .ok version)
    (hroom : s.registry.HasRoom phase reactor) :
    ((resolver.resolve phase reactor).run s).1 = .ok () := by
  by_cases hauto : resolver.config.autoVersionSubmodules = true
  · cases reactor with
    | nil => rfl
    | cons leader rest =>
      have hleading : ∃ version,
          ((resolver.leading phase leader (rest.length + 1)).run s).1 = .ok version := by
        obtain ⟨version, hversion⟩ := hdecided leader List.mem_cons_self true s
        rw [decider_leader] at hversion
        exact ⟨version, (run_leading leader _).trans hversion⟩
      obtain ⟨_, t, hrest, hnext⟩ :=
        (resolver.resolve_turn_of_auto phase hauto leader rest s).exists_recorded hleading hroom
      rw [← hnext]
      exact propagate_succeeds hrest
  · simp only [decider_of_not_auto hauto] at hdecided
    rw [resolve_of_not_auto hauto]
    exact resolveEach_succeeds hdecided hroom

/-- Where it is the same in every session whether a version is decided for a module, a phase for
    which there is room goes through exactly if one is decided in every turn that decides about a
    module. -/
theorem resolve_succeeds_iff {reactor : List Module} {Decided : Module → Prop}
    (hdecided : ∀ m ∈ reactor, ∀ first t,
      (∃ version, ((resolver.resolveModule phase m first).run t).1 = .ok version) ↔ Decided m)
    (hroom : s.registry.HasRoom phase reactor) :
    ((resolver.resolve phase reactor).run s).1 = .ok () ↔
      ∀ m ∈ reactor, Decided (resolver.decider reactor m) := by
  constructor
  · intro h m hm
    obtain ⟨version, ⟨first, t, t', -, hrun⟩, -⟩ := resolve_decided (Prod.ext h rfl) hm
    exact (hdecided _ (decider_mem hm) first t).1 ⟨version, congrArg Prod.fst hrun⟩
  · intro h
    refine resolve_succeeds (fun m hm first t => ?_) hroom
    exact (hdecided _ (decider_mem hm) first t).2 (h m hm)

/-! ### Dropping the marker -/

/-- A module whose version can be read is released exactly if its qualifier does not bring the
    marker back. -/
theorem resolveModule_succeeds_iff (hbatch : resolver.config.interactive = false)
    (hpolicy : resolver.policies.get resolver.config.policy = .ok .markerOnly) {m : Module}
    {first : Bool} (hfree : resolver.fixedVersion? .release m first = none) {v : Version}
    (hv : Version.parse? m.version = some v) (s : Session) :
    (∃ version, ((resolver.resolveModule .release m first).run s).1 = .ok version) ↔
      ¬v.QualifierMarked := by
  have hsuggest : ((resolver.suggest .release m first).run s).1 = .ok v.toRelease.text := by
    have hbase : resolver.baseVersion .release m first s.registry = m.version := rfl
    have hread : Version.parse? (resolver.request m m.version).version = some v := hv
    have hasked := Policy.run_release_markerOnly (resolver.request m m.version) s.journal
    rw [hread, ← Policy.propose_release, ← askPolicy_outcome hpolicy] at hasked
    rcases hrun : (resolver.askPolicy .release m m.version).run s with ⟨outcome, t⟩
    rw [hrun] at hasked
    obtain rfl : outcome = .ok v.toRelease.text := hasked
    rw [← hbase] at hrun
    rw [run_suggest_of_ok hrun]
  rw [← v.isSnapshot_text_toRelease, resolveModule, Resolve.run_mapError, nextVersion,
    if_neg (by simp [keepsCurrent]), hfree, Failure.run_bind]
  rcases hrun : (resolver.suggest .release m first).run s with ⟨_ | proposal, t⟩ <;>
    rw [hrun] at hsuggest <;> cases hsuggest
  -- A batch run has the proposal checked.
  by_cases hmarker : isSnapshot v.toRelease.text = true <;>
    simp [hbatch, checked, hmarker, Phase.expectsSnapshot, Except.mapError]

/-- The policy that drops the marker releases every version that it can read; the text that it comes
    to carries the marker exactly if the qualifier of the version brings it back. So a batch run in
    which no version is fixed releases modules for which there is room, and whose versions can be
    read, exactly if no such qualifier is met in a turn that decides about a module. -/
theorem release_succeeds_iff (hbatch : resolver.config.interactive = false)
    (hpolicy : resolver.config.policy = Policies.defaultId)
    (hbuiltin : resolver.policies.get Policies.defaultId = .ok .markerOnly)
    (hdefault : resolver.config.defaultVersion? .release = none) {reactor : List Module}
    (hexplicit : ∀ m ∈ reactor, resolver.config.explicitVersion? .release m.id = none)
    (hroom : s.registry.HasRoom .release reactor)
    (hread : ∀ m ∈ reactor, ∃ v, Version.parse? m.version = some v) :
    (∀ (request : PolicyRequest) (j : Journal) (v : Version),
      Version.parse? request.version = some v →
        ((Policy.markerOnly.release request).run j).1 = .ok v.toRelease.text ∧
          (isSnapshot v.toRelease.text = true ↔ v.QualifierMarked)) ∧
    (((resolver.resolve .release reactor).run s).1 = .ok () ↔
      ∀ m ∈ reactor, ∀ v, Version.parse? (resolver.decider reactor m).version = some v →
        ¬v.QualifierMarked) := by
  have hproposal (request : PolicyRequest) (j : Journal) (v : Version)
      (hv : Version.parse? request.version = some v) :
      ((Policy.markerOnly.release request).run j).1 = .ok v.toRelease.text := by
    rw [Policy.run_release_markerOnly, hv]
  refine ⟨fun request j v hv => ⟨hproposal request j v hv, v.isSnapshot_text_toRelease⟩, ?_⟩
  have hdecided : ∀ m ∈ reactor, ∀ first t,
      (∃ version, ((resolver.resolveModule .release m first).run t).1 = .ok version) ↔
        ∀ v, Version.parse? m.version = some v → ¬v.QualifierMarked := by
    intro m hm first t
    obtain ⟨v, hv⟩ := hread m hm
    have hfree : resolver.fixedVersion? .release m first = none := by
      rw [fixedVersion?, hexplicit m hm, hdefault, ite_self, Option.or_none]
    rw [resolveModule_succeeds_iff hbatch (hpolicy.symm ▸ hbuiltin) hfree hv]
    refine ⟨fun h v' hv' => ?_, fun h => h v hv⟩
    cases hv.symm.trans hv'
    exact h
  exact resolve_succeeds_iff hdecided hroom

/-- Two modules are released, one of them with a qualifier. -/
theorem release_succeeds_with_qualifier :
    let resolver : Resolver := ⟨{ interactive := false }, .builtin, none⟩
    let reactor : List Module := [.ofId ⟨"g", "core"⟩ "1.0-SNAPSHOT", .ofId ⟨"g", "web"⟩ "2-beta"]
    resolver.config.interactive = false ∧ resolver.config.policy = Policies.defaultId ∧
      resolver.policies.get Policies.defaultId = .ok .markerOnly ∧
      resolver.config.defaultVersion? .release = none ∧
      (∀ m ∈ reactor, resolver.config.explicitVersion? .release m.id = none) ∧
      Registry.empty.HasRoom .release reactor ∧
      (∀ m ∈ reactor, ∃ v, Version.parse? m.version = some v) ∧
      ((resolver.resolve .release reactor).run (.start (.scripted []))).1 = .ok () := by
  intro resolver reactor
  have hexplicit : ∀ m ∈ reactor, resolver.config.explicitVersion? .release m.id = none :=
    fun _ _ => rfl
  have hroom : Registry.empty.HasRoom .release reactor := ⟨by decide +kernel, fun _ _ => rfl⟩
  have hcore : Version.parse? "1.0-SNAPSHOT" = some ⟨.two 1 0, none, true⟩ := by decide +kernel
  have hweb : Version.parse? "2-beta" = some ⟨.one 2, some "beta", false⟩ := by decide +kernel
  have hread : ∀ m ∈ reactor, ∃ v, Version.parse? m.version = some v := by
    simp [reactor, Module.ofId, hcore, hweb]
  have hqualifiers : ∀ m ∈ reactor, ∀ v,
      Version.parse? (resolver.decider reactor m).version = some v → ¬v.QualifierMarked := by
    have hbeta : isSnapshot "-beta" = false := by decide +kernel
    simp [reactor, resolver, decider, Module.ofId, hcore, hweb, Version.QualifierMarked, hbeta]
  refine ⟨rfl, rfl, rfl, rfl, hexplicit, hroom, hread, ?_⟩
  exact (release_succeeds_iff (s := .start (.scripted [])) rfl rfl rfl rfl hexplicit hroom
    hread).2.2 hqualifiers

/-- A version that a deployed snapshot carries can be read, but its release is the same text, which
    a batch run does not accept: nothing is recorded. -/
theorem deployed_snapshot_not_released :
    let resolver : Resolver := ⟨{ interactive := false }, .builtin, none⟩
    let deployed := "1.0-20240101.120000-3"
    let run := (resolver.resolve .release [.ofId ⟨"g", "app"⟩ deployed]).run
      (.start (.scripted []))
    (∃ v, Version.parse? deployed = some v ∧ v.toRelease.text = deployed) ∧
      isSnapshot deployed = true ∧
      run.1 = .error (.error (.inModule "g:app" .release (.invalidVersion deployed false))) ∧
      run.2.registry = .empty := by
  refine ⟨⟨⟨.two 1 0, some "20240101.120000-3", false⟩, ?_⟩, ?_⟩ <;> decide +kernel

end Resolver

end Versioning
