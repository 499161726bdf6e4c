import Versioning.Proofs.Resolution.Growth

/-!
# The marker in the registry

All but the released versions are versions under development, and carry the marker. Only
a module that a phase leaves alone keeps its version as it is, with the marker or without
(`Resolver.Admissible`).

* When every module is resolved on its own, all versions in a registry that a release can
  reach are admissible, and no released version carries the marker
  (`Resolver.Reached.entries_admissible`).
* When the version of the first module is given to all, this holds except in one
  situation (`Resolver.resolve_admissible_iff`). In a phase that changes versions under
  development and leaves the others alone, a first module without the marker keeps its
  version; no marker is asked of it, and still it is given to the modules with the marker,
  which the phase does change (`Resolver.workingCopy_loses_marker`).
-/

namespace Versioning.Resolver

variable {resolver : Resolver} {phase : Phase}

variable (resolver phase) in
/-- A version is admissible for a module if it is the module's own and the phase leaves that alone,
    or if it carries the marker exactly if the phase expects it. -/
def Admissible (m : Module) (version : String) : Prop :=
  (resolver.keepsCurrent phase m.version = true ∧ version = m.version) ∨
    isSnapshot version = phase.expectsSnapshot

instance (m : Module) (version : String) : Decidable (resolver.Admissible phase m version) :=
  inferInstanceAs (Decidable (_ ∨ _))

theorem Settled.admissible {m : Module} {version : String}
    (h : resolver.Settled phase m version) : resolver.Admissible phase m version := by
  rw [Settled] at h
  split at h
  · next hkeeps => exact .inl ⟨hkeeps, h⟩
  · exact .inr h

/-- No released version is left as it was, so each of them is without the marker. -/
theorem Settled.isSnapshot_of_release {m : Module} {version : String}
    (h : resolver.Settled .release m version) : isSnapshot version = false := by
  rw [Settled, if_neg (by simp [keepsCurrent])] at h
  exact h

/-! ## Modules on their own -/

/-- An attempt to resolve some phases for some modules. -/
structure Attempt where
  phases : List Phase
  reactor : List Module

variable (resolver) in
/-- The sessions that a release can come to. It starts with nothing resolved, and then makes any
    number of attempts, whether those before succeeded or not. The list is what was attempted, the
    latest first. -/
inductive Reached (operator : Operator) : List Attempt → Session → Prop
  | start : Reached operator [] (.start operator)
  | attempt {earlier : List Attempt} {s : Session} (a : Attempt) : Reached operator earlier s →
      Reached operator (a :: earlier) ((resolver.executePhases a.reactor a.phases).run s).2

variable (resolver phase) in
/-- A version was written for a module in one of the attempts: its place was free before that
    attempt and taken after it, and the module is the first one with the id. -/
def WrittenBy (operator : Operator) (attempts : List Attempt) (id : ModuleId) (version : String)
    (m : Module) : Prop :=
  ∃ (later earlier : List Attempt) (a : Attempt) (s : Session),
    attempts = later ++ a :: earlier ∧ resolver.Reached operator earlier s ∧
      s.registry.get? id phase = none ∧
      ((resolver.executePhases a.reactor a.phases).run s).2.registry.get? id phase =
        some version ∧
      phase ∈ a.phases ∧ a.reactor.find? (fun m => m.id = id) = some m

variable {operator : Operator} {attempts : List Attempt} {s : Session}

theorem WrittenBy.id_eq {id : ModuleId} {version : String} {m : Module}
    (h : resolver.WrittenBy phase operator attempts id version m) : m.id = id := by
  obtain ⟨_, _, a, _, -, -, -, -, -, hfind⟩ := h
  simpa using List.find?_some hfind

/-- Every version in the registry is what was settled for the module that it was written for. -/
theorem Reached.settled (hauto : resolver.config.autoVersionSubmodules = false)
    (h : resolver.Reached operator attempts s) {id : ModuleId} {version : String}
    (hentry : s.registry.get? id phase = some version) :
    ∃ m, resolver.WrittenBy phase operator attempts id version m ∧
      resolver.Settled phase m version := by
  induction h with
  | start => cases hentry
  | @attempt earlier s a h ih =>
    rcases resolver.executePhases_writes hauto a.reactor a.phases s phase id with
      hsame | ⟨hfree, v, hnew, hphase, m, hfind, hsettled⟩
    · -- It was there before this attempt.
      obtain ⟨m, ⟨later, earlier, a', s', rfl, hwritten⟩, hsettled⟩ := ih (hsame.symm.trans hentry)
      exact ⟨m, ⟨a :: later, earlier, a', s', rfl, hwritten⟩, hsettled⟩
    · -- It was written in this attempt.
      obtain rfl : v = version := Option.some.inj (hnew.symm.trans hentry)
      exact ⟨m, ⟨[], earlier, a, s, rfl, h, hfree, hnew, hphase, hfind⟩, hsettled⟩

/-- When modules are resolved on their own, every version in the registry was written for a module
    with its id and is admissible for it; and no released version carries the marker. Nothing is
    assumed about the policies, the operator and the change log, and attempts may have failed. -/
theorem Reached.entries_admissible (hauto : resolver.config.autoVersionSubmodules = false)
    (h : resolver.Reached operator attempts s) :
    (∀ (id : ModuleId) (phase : Phase) (version : String),
      s.registry.get? id phase = some version →
      ∃ m, m.id = id ∧ resolver.WrittenBy phase operator attempts id version m ∧
        resolver.Admissible phase m version) ∧
    ∀ (id : ModuleId) (version : String),
      s.registry.get? id .release = some version → isSnapshot version = false := by
  refine ⟨fun id phase version hentry => ?_, fun id version hentry => ?_⟩
  · obtain ⟨m, hwritten, hsettled⟩ := h.settled hauto hentry
    exact ⟨m, hwritten.id_eq, hwritten, hsettled.admissible⟩
  · obtain ⟨m, -, hsettled⟩ := h.settled hauto hentry
    exact hsettled.isSnapshot_of_release

/-- A parent and a module, with their versions. -/
def parentAndApi (parent api : String) : List Module :=
  [⟨⟨"g", "parent"⟩, "parent", parent, none⟩, ⟨⟨"g", "api"⟩, "api", api, none⟩]

/-- A release that fails at its second module, for which the operator gives a version with the
    marker; the version of the first one stays in the registry. -/
theorem admissible_after_refused_answer :
    let resolver : Resolver := ⟨{ }, .builtin, none⟩
    let reactor := parentAndApi "1.0-SNAPSHOT" "2.0-SNAPSHOT"
    let operator := Operator.scripted ["1.5", "2.0-SNAPSHOT"]
    let released := (resolver.executePhases reactor [.release, .development]).run (.start operator)
    resolver.config.autoVersionSubmodules = false ∧ released.1.isOk = false ∧
      resolver.Reached operator [⟨[.release, .development], reactor⟩] released.2 ∧
      released.2.registry.get? ⟨"g", "parent"⟩ .release = some "1.5" ∧
      isSnapshot "1.5" = false ∧
      ∃ m, m.id = ⟨"g", "parent"⟩ ∧ resolver.Admissible .release m "1.5" := by
  intro resolver reactor operator released
  have hreached : resolver.Reached operator [⟨[.release, .development], reactor⟩] released.2 :=
    .attempt ⟨[.release, .development], reactor⟩ .start
  have hentry : released.2.registry.get? ⟨"g", "parent"⟩ .release = some "1.5" := by
    decide +kernel
  obtain ⟨hadmissible, hrelease⟩ := hreached.entries_admissible rfl
  obtain ⟨m, hid, -, hm⟩ := hadmissible _ _ _ hentry
  exact ⟨rfl, by decide +kernel, hreached, hentry, hrelease _ _ hentry, m, hid, hm⟩

/-! ## The version of the first module for all -/

variable (resolver phase) in
/-- Whether a phase changes the versions with the marker, and leaves those without it alone. -/
def changesOnlySnapshots : Bool :=
  match phase with
  | .release | .development => false
  | .branch => resolver.config.updateBranchVersions && !resolver.config.updateVersionsToSnapshot
  | .workingCopy => resolver.config.updateWorkingCopyVersions

/-- Only such a phase treats two versions differently: it leaves one without the marker alone and
    changes one with it. -/
theorem keepsCurrent_only_first_iff {v w : String} :
    (resolver.keepsCurrent phase v = true ∧ ¬resolver.keepsCurrent phase w = true) ↔
      resolver.changesOnlySnapshots phase = true ∧ isSnapshot v = false ∧
        isSnapshot w = true := by
  cases phase with
  | release => simp [keepsCurrent, changesOnlySnapshots]
  | development => simp [keepsCurrent, changesOnlySnapshots]
  | branch =>
    simp only [keepsCurrent, changesOnlySnapshots]
    cases resolver.config.updateBranchVersions <;>
      cases resolver.config.updateVersionsToSnapshot <;> simp
  | workingCopy =>
    simp only [keepsCurrent, changesOnlySnapshots]
    cases resolver.config.updateWorkingCopyVersions <;> simp

theorem expectsSnapshot_of_changesOnlySnapshots
    (h : resolver.changesOnlySnapshots phase = true) : phase.expectsSnapshot = true := by
  cases phase with
  | release => cases h
  | _ => rfl

/-- What was settled for the first module is admissible for another one, unless it was settled only
    because the phase leaves the first one alone. -/
theorem admissible_propagated_iff {first m : Module} {version : String}
    (h : resolver.Settled phase first version) :
    resolver.Admissible phase m (resolver.propagated phase version m) ↔
      ¬(resolver.changesOnlySnapshots phase = true ∧ isSnapshot first.version = false ∧
        isSnapshot m.version = true) := by
  rw [← keepsCurrent_only_first_iff]
  rw [Settled] at h
  rw [Admissible, propagated]
  by_cases hm : resolver.keepsCurrent phase m.version = true
  · -- The module keeps its own version, whatever is propagated.
    simp [hm]
  · rw [if_neg hm]
    by_cases hfirst : resolver.keepsCurrent phase first.version = true
    · -- The first module was left alone, so nobody has looked at its marker: it has none.
      rw [if_pos hfirst] at h
      obtain ⟨honly, hv, -⟩ := keepsCurrent_only_first_iff.1 ⟨hfirst, hm⟩
      rw [h, hv, expectsSnapshot_of_changesOnlySnapshots honly]
      simp [hm, hfirst]
    · rw [if_neg hfirst] at h
      simp [h, hfirst]

/-- When the version of the first module is given to all, whatever a phase adds is for a module of
    the reactor; and it is admissible for that module, unless the phase changes only versions with
    the marker, and the module's version has it and the first module's has not. -/
theorem resolve_admissible_iff (hauto : resolver.config.autoVersionSubmodules = true)
    {reactor : List Module} {s : Session} {place : Phase} {id : ModuleId} {version : String}
    (hfree : s.registry.get? id place = none)
    (hnew : ((resolver.resolve phase reactor).run s).2.registry.get? id place = some version) :
    place = phase ∧ ∃ first m, reactor.head? = some first ∧
      reactor.find? (fun m => m.id = id) = some m ∧
      (resolver.Admissible phase m version ↔
        ¬(resolver.changesOnlySnapshots phase = true ∧ isSnapshot first.version = false ∧
          isSnapshot m.version = true)) := by
  cases reactor with
  | nil => cases hfree.symm.trans hnew
  | cons first rest =>
    obtain ⟨hplace, m, hfind, settled, hsettled, rfl⟩ :=
      (resolver.resolve_writes_propagated hauto first rest s).added_of_free hfree hnew
    exact ⟨hplace, first, m, rfl, hfind, admissible_propagated_iff hsettled⟩

/-- A resolver for branches that gives the version of the first module to all. -/
def branching : Resolver where
  config := { interactive := false, autoVersionSubmodules := true, branchCreation := true }
  policies := .builtin
  log? := none

/-- Two modules under development go on with the same version. -/
theorem resolve_admissible_snapshots :
    let reactor := parentAndApi "1.0-SNAPSHOT" "2.0-SNAPSHOT"
    let session := ((branching.resolve .workingCopy reactor).run (.start (.scripted []))).2
    branching.config.autoVersionSubmodules = true ∧
      Registry.empty.get? ⟨"g", "api"⟩ .workingCopy = none ∧
      session.registry.get? ⟨"g", "api"⟩ .workingCopy = some "1.1-SNAPSHOT" ∧
      ∃ m ∈ reactor, m.id = ⟨"g", "api"⟩ ∧
        branching.Admissible .workingCopy m "1.1-SNAPSHOT" := by
  intro reactor session
  have hnew : session.registry.get? ⟨"g", "api"⟩ .workingCopy = some "1.1-SNAPSHOT" := by
    decide +kernel
  obtain ⟨-, first, m, hfirst, hfind, hiff⟩ := resolve_admissible_iff rfl rfl hnew
  cases hfirst
  have hid : m.id = ⟨"g", "api"⟩ := by simpa using List.find?_some hfind
  refine ⟨rfl, rfl, hnew, m, List.mem_of_find?_eq_some hfind, hid, hiff.2 fun h => ?_⟩
  exact absurd h.2.1 (by decide +kernel)

/-- A released parent keeps its version in the working copy, and the module under development that
    belongs to it gets that version without the marker, although the phase does not leave it
    alone. -/
theorem workingCopy_loses_marker :
    let reactor := parentAndApi "1.0" "2.0-SNAPSHOT"
    let resolved := (branching.resolve .workingCopy reactor).run (.start (.scripted []))
    branching.config.autoVersionSubmodules = true ∧ resolved.1.isOk = true ∧
      Registry.empty.get? ⟨"g", "api"⟩ .workingCopy = none ∧
      resolved.2.registry.get? ⟨"g", "api"⟩ .workingCopy = some "1.0" ∧
      ∀ m ∈ reactor, m.id = ⟨"g", "api"⟩ → ¬branching.Admissible .workingCopy m "1.0" := by
  intro reactor resolved
  exact ⟨rfl, by decide +kernel, rfl, by decide +kernel, by decide +kernel⟩

end Versioning.Resolver
