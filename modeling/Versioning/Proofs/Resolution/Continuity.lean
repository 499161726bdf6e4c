import Versioning.Proofs.Resolution.Completeness
import Versioning.Proofs.Resolution.Inquiry

/-!
# Continuing from the release

After a release the other phases go on from the version that a module was really released
as. A proposal does not read that version off the registry alone: a version that is fixed for
the release of the module comes first. The two agree, since a fixed version is the one that
gets recorded (`Resolver.ReleasedAs`), whichever phases were attempted in between
(`Resolver.Continued`). So the policy is asked for the version after the released one, and
otherwise only for the one after the fallback (`Resolver.resolve_inquires_after_release`).
-/

namespace Versioning.Resolver

open Resolve (Decides Silent)

variable {resolver : Resolver} {phase : Phase} {m : Module}

/-! ### The released version -/

variable (resolver) in
/-- A module was released as a version, and no other version is fixed for its release. -/
structure ReleasedAs (registry : Registry) (m : Module) (release : String) : Prop where
  recorded : registry.get? m.id .release = some release
  fixed : ∀ version ∈ resolver.config.explicitVersion? .release m.id, version = release

/-- Proposals for the other phases start from the released version. -/
theorem ReleasedAs.baseVersion {released registry : Registry} {release : String}
    (h : resolver.ReleasedAs released m release) (hphase : phase.expectsSnapshot = true)
    (hsame : registry.get? m.id .release = released.get? m.id .release) (first : Bool) :
    resolver.baseVersion phase m first registry = release := by
  rw [Resolver.baseVersion, if_pos hphase, hsame, h.recorded]
  cases hfixed : resolver.config.explicitVersion? .release m.id with
  | none => rfl
  | some version => exact h.fixed version hfixed

/-- A fixed version is the one that is decided. -/
theorem nextVersion_decides_fixed {first : Bool} {version : String}
    (hchanges : ¬resolver.keepsCurrent phase m.version = true)
    (hfixed : resolver.fixedVersion? phase m first = some version) :
    Decides (resolver.nextVersion phase m first) (· = version) := by
  rw [nextVersion, if_neg hchanges, hfixed]
  dsimp only
  have hchecked : Decides (checked phase version) (· = version) := by
    rw [checked]
    split
    · exact .pure rfl
    · exact .throw _
  exact hchecked.bind fun _ h => (Decides.consult _).bind fun _ _ => .pure h

theorem resolveModule_decides_fixed (m : Module) (first : Bool) :
    Decides (resolver.resolveModule .release m first) fun release =>
      ∀ version ∈ resolver.config.explicitVersion? .release m.id, version = release := by
  refine Decides.mapError ?_
  cases hfixed : resolver.config.explicitVersion? .release m.id with
  | none => exact (resolver.nextVersion_decides m first).mono fun _ _ => nofun
  | some version =>
    have hdecides : Decides (resolver.nextVersion .release m first) (· = version) := by
      refine nextVersion_decides_fixed Bool.false_ne_true ?_
      rw [fixedVersion?, hfixed, Option.some_or]
    refine hdecides.mono fun release hrelease fixed hmem => ?_
    cases hmem
    exact hrelease.symm

theorem DecidedFrom.fixed {registry : Registry} {release : String}
    (h : resolver.DecidedFrom .release registry m release) :
    ∀ version ∈ resolver.config.explicitVersion? .release m.id, version = release := by
  obtain ⟨first, t, t', -, hrun⟩ := h
  exact (resolveModule_decides_fixed m first t).2 release (congrArg Prod.fst hrun)

/-- A release that succeeds has released every module as the version that was decided for it, and
    so was the module in whose turn this happened. -/
theorem exists_released {reactor : List Module} {s released : Session}
    (h : (resolver.resolve .release reactor).run s = (.ok (), released)) (hm : m ∈ reactor) :
    ∃ release, released.registry.get? m.id .release = some release ∧
      resolver.ReleasedAs released.registry (resolver.decider reactor m) release := by
  obtain ⟨release, hdecided, hdecider, hrecorded⟩ := resolve_decided h hm
  -- A release leaves no module alone, so what is propagated is what was decided.
  exact ⟨release, hrecorded, hdecider, hdecided.fixed⟩

/-! ### After the release -/

variable (resolver) in
/-- The sessions after a release that succeeded: other phases were attempted for the same modules,
    any number of times, and succeeded or not. -/
inductive Continued (operator : Operator) (reactor : List Module) : Session → Prop
  | released {s : Session} :
    (resolver.resolve .release reactor).run (.start operator) = (.ok (), s) →
      Continued operator reactor s
  | attempted {s : Session} (phases : List Phase) : Continued operator reactor s →
      (∀ phase ∈ phases, phase.expectsSnapshot = true) →
      Continued operator reactor ((resolver.executePhases reactor phases).run s).2

/-- Whatever is attempted after it, the release stays as it was. -/
theorem Continued.exists_released {operator : Operator} {reactor : List Module} {t : Session}
    (h : resolver.Continued operator reactor t) :
    ∃ s, (resolver.resolve .release reactor).run (.start operator) = (.ok (), s) ∧
      ∀ id, t.registry.get? id .release = s.registry.get? id .release := by
  induction h with
  | @released s hs => exact ⟨s, hs, fun _ => rfl⟩
  | @attempted t phases _ hphases ih =>
    obtain ⟨s, hs, hsame⟩ := ih
    refine ⟨s, hs, fun id => ?_⟩
    -- None of the phases is a release, and so none of them writes a released version.
    rcases resolver.executePhases_writes_phases reactor phases t .release id with
      hkept | ⟨-, _, -, hmem⟩
    · exact hkept.trans (hsame id)
    · cases hphases _ hmem

/-! ### What is asked in a phase -/

variable (resolver phase) in
/-- What is asked in a phase for some modules, given the versions that they were released as: it is
    only about these modules, and about each of them as in its turn. -/
structure Inquired (modules : List Module) (registry : Registry) (new : List Inquiry) : Prop where
  about : ∀ i ∈ new, i.phase = phase ∧ i.subject ∈ modules
  turns : ∀ m ∈ modules, ∀ release, registry.get? m.id .release = some release →
    resolver.Consulted phase m release (new.filter (·.subject = m))

theorem Consulted.about {base : String} {new : List Inquiry}
    (h : resolver.Consulted phase m base new) : ∀ i ∈ new, i.phase = phase ∧ i.subject = m := by
  cases h with
  | unasked => exact nofun
  | once => simp
  | again => simp

namespace Inquired

variable {modules : List Module} {registry : Registry}

theorem nil (modules : List Module) (registry : Registry) :
    resolver.Inquired phase modules registry [] :=
  ⟨nofun, fun _ _ _ _ => .unasked⟩

/-- The turn of a module comes before those of other ones. -/
theorem cons {later first : List Inquiry} {release : String} (hm : m ∉ modules)
    (hrelease : registry.get? m.id .release = some release)
    (hfirst : resolver.Consulted phase m release first)
    (hlater : resolver.Inquired phase modules registry later) :
    resolver.Inquired phase (m :: modules) registry (later ++ first) := by
  refine ⟨fun i hi => ?_, fun m' hm' release' hrelease' => ?_⟩
  · rcases List.mem_append.1 hi with hi | hi
    · exact (hlater.about i hi).imp_right (List.mem_cons_of_mem _)
    · obtain ⟨hphase, hsubject⟩ := hfirst.about i hi
      exact ⟨hphase, hsubject ▸ List.mem_cons_self⟩
  · rw [List.filter_append]
    by_cases hsame : m' = m
    · -- The later turns are not about the first module.
      subst hsame
      have hnone : later.filter (·.subject = m') = [] := by
        simp only [List.filter_eq_nil_iff, decide_eq_true_eq]
        exact fun i hi hsubject => hm (hsubject ▸ (hlater.about i hi).2)
      have hall : first.filter (·.subject = m') = first := by
        simp only [List.filter_eq_self, decide_eq_true_eq]
        exact fun i hi => (hfirst.about i hi).2
      rw [hnone, hall, List.nil_append]
      cases hrelease.symm.trans hrelease'
      exact hfirst
    · have hnone : first.filter (·.subject = m') = [] := by
        simp only [List.filter_eq_nil_iff, decide_eq_true_eq]
        exact fun i hi hsubject => hsame (hsubject.symm.trans (hfirst.about i hi).2)
      rw [hnone, List.append_nil]
      exact hlater.turns m' (List.mem_of_ne_of_mem hsame hm') release' hrelease'

end Inquired

/-- What is recorded in another phase does not change the released versions. -/
theorem get?_release_of_record {before after released : Registry} {id : ModuleId} {version : String}
    (hphase : phase.expectsSnapshot = true) (h : before.record id phase version = .ok after)
    (hsame : ∀ id, before.get? id .release = released.get? id .release) :
    ∀ id, after.get? id .release = released.get? id .release := by
  intro id'
  refine (Registry.get?_record_of_ne h ?_).trans (hsame id')
  rintro ⟨rfl, -⟩
  cases hphase

theorem resolveEach_inquires (hphase : phase.expectsSnapshot = true) {released : Registry}
    {modules : List Module} (hnodup : modules.Nodup)
    (hreleased : ∀ m ∈ modules, ∃ release, resolver.ReleasedAs released m release)
    {s : Session} (hsame : ∀ id, s.registry.get? id .release = released.get? id .release)
    (first : Bool) :
    ∃ new, ((resolver.resolveEach phase first modules).run s).2.inquiries = new ++ s.inquiries ∧
      resolver.Inquired phase modules released new := by
  induction modules generalizing first s with
  | nil => exact ⟨[], rfl, .nil _ _⟩
  | cons m rest ih =>
    obtain ⟨hm, hnodup⟩ := List.nodup_cons.1 hnodup
    obtain ⟨release, hrelease⟩ := hreleased m List.mem_cons_self
    obtain ⟨new, hnew, hconsulted⟩ := resolver.resolveModule_consulted phase m first s
    rw [hrelease.baseVersion hphase (hsame m.id)] at hconsulted
    have hturn := resolver.resolveEach_turn phase first m rest s
    generalize (resolver.resolveEach phase first (m :: rest)).run s = run at hturn ⊢
    cases hturn with
    | undecided hrun hreg =>
      -- A turn that fails has asked all the same, and it is the last one.
      rw [hrun] at hnew
      exact ⟨new, hnew, .cons hm hrelease.recorded hconsulted (.nil rest _)⟩
    | taken hrun hreg htaken =>
      rw [hrun] at hnew
      exact ⟨new, hnew, .cons hm hrelease.recorded hconsulted (.nil rest _)⟩
    | @recorded version t registry _ hrun hreg hrecord hnext =>
      -- The other turns come after this one, from the same released versions.
      rw [hrun] at hnew
      have hsame' : ∀ id, registry.get? id .release = released.get? id .release :=
        get?_release_of_record hphase hrecord hsame
      obtain ⟨later, hlater, hinquired⟩ := ih (s := { t with registry }) hnodup
        (fun m' hm' => hreleased m' (List.mem_cons_of_mem _ hm')) hsame' false
      rw [hnext] at hlater
      refine ⟨later ++ new, ?_, .cons hm hrelease.recorded hconsulted hinquired⟩
      rw [List.append_assoc, ← hnew]
      exact hlater

/-- While a version is propagated, the policy is not asked. -/
theorem propagate_silent (version : String) (modules : List Module) :
    Silent (resolver.propagate phase version modules) := by
  induction modules with
  | nil => exact .pure ()
  | cons m rest ih => exact (Silent.record _ _ _).bind fun _ => ih

/-- When the version of the first module is given to all, only that one is asked about. -/
theorem resolve_inquires_of_auto (hauto : resolver.config.autoVersionSubmodules = true)
    (leader : Module) (rest : List Module) (s : Session) :
    ((resolver.resolve phase (leader :: rest)).run s).2.inquiries =
      ((resolver.resolveModule phase leader true).run s).2.inquiries := by
  rw [resolve, if_pos hauto]
  refine Silent.inquiries_bind (fun version => ?_) s
  refine (Silent.consult _).bind fun _ => ?_
  exact (Silent.record _ _ _).bind fun _ => propagate_silent version rest

/-- A release that succeeds has had no module twice. -/
theorem nodup_of_resolve {operator : Operator} {reactor : List Module} {s : Session}
    (h : (resolver.resolve phase reactor).run (.start operator) = (.ok (), s)) :
    reactor.Nodup := by
  have hkeys := resolver.resolve_fills phase reactor (.start operator) () (congrArg Prod.fst h)
  rw [show (Session.start operator).registry.slots.keys = [] from rfl, List.append_nil] at hkeys
  exact (hkeys.nodup_iff.1 (OrderedMap.nodup_keys _)).of_map _

theorem resolve_inquires (hphase : phase.expectsSnapshot = true) {operator : Operator}
    {reactor : List Module} {s t : Session}
    (hs : (resolver.resolve .release reactor).run (.start operator) = (.ok (), s))
    (hsame : ∀ id, t.registry.get? id .release = s.registry.get? id .release) :
    ∃ new, ((resolver.resolve phase reactor).run t).2.inquiries = new ++ t.inquiries ∧
      resolver.Inquired phase reactor s.registry new := by
  have hnodup : reactor.Nodup := nodup_of_resolve hs
  by_cases hauto : resolver.config.autoVersionSubmodules = true
  · cases reactor with
    | nil => exact ⟨[], rfl, .nil [] _⟩
    | cons leader rest =>
      obtain ⟨release, -, hrelease⟩ := exists_released hs List.mem_cons_self
      rw [decider_leader] at hrelease
      obtain ⟨new, hnew, hconsulted⟩ := resolver.resolveModule_consulted phase leader true t
      rw [hrelease.baseVersion hphase (hsame leader.id)] at hconsulted
      refine ⟨new, (resolve_inquires_of_auto hauto leader rest t).trans hnew, ?_⟩
      exact .cons (List.nodup_cons.1 hnodup).1 hrelease.recorded hconsulted (.nil rest _)
  · rw [resolve_of_not_auto hauto]
    refine resolveEach_inquires hphase hnodup (fun m hm => ?_) hsame true
    obtain ⟨release, -, hrelease⟩ := exists_released hs hm
    rw [decider_of_not_auto hauto] at hrelease
    exact ⟨release, hrelease⟩

/-- Once the modules are released, the policy is asked for versions after the released ones. In a
    phase that comes later it is only asked about the modules. About each of them it is asked at
    most twice: the first time for a version after the one that the module was released as, and
    the second time for a version after the fallback, if the run is interactive and the first
    inquiry failed because of the format of a version. -/
theorem resolve_inquires_after_release {operator : Operator} {reactor : List Module} {t : Session}
    (hcontinued : resolver.Continued operator reactor t) (hphase : phase.expectsSnapshot = true) :
    let after := ((resolver.resolve phase reactor).run t).2
    ∃ new, after.inquiries = new ++ t.inquiries ∧
      (∀ i ∈ new, i.phase = phase ∧ i.subject ∈ reactor) ∧
      ∀ m ∈ reactor, ∃ release, after.registry.get? m.id .release = some release ∧
        resolver.Consulted phase m release (new.filter (·.subject = m)) := by
  intro after
  obtain ⟨s, hs, hsame⟩ := hcontinued.exists_released
  have hinquired : ∃ new, after.inquiries = new ++ t.inquiries ∧
      resolver.Inquired phase reactor s.registry new :=
    resolve_inquires hphase hs hsame
  obtain ⟨new, hnew, habout, hturns⟩ := hinquired
  refine ⟨new, hnew, habout, fun m hm => ?_⟩
  obtain ⟨release, hrelease, -⟩ := exists_released hs hm
  refine ⟨release, ?_, hturns m hm release hrelease⟩
  rcases resolver.resolve_writes phase reactor t .release m.id with hkept | ⟨-, _, -, rfl⟩
  · rw [hkept, hsame, hrelease]
  · cases hphase

/-- A module is released as a text that is no version. For its development the policy is asked for
    a version after that text, and then, since this fails, for one after the fallback. -/
theorem asks_after_unreadable_release :
    let resolver : Resolver :=
      ⟨{ releaseVersions := .ofList [("g:app", "nightly")] }, .builtin, none⟩
    let app : Module := .ofId ⟨"g", "app"⟩ "2.0-SNAPSHOT"
    let operator := Operator.scripted [""]
    let released := (resolver.resolve .release [app]).run (.start operator)
    let after := ((resolver.resolve .development [app]).run released.2).2
    resolver.Continued operator [app] released.2 ∧ Phase.development.expectsSnapshot = true ∧
      after.registry.get? app.id .release = some "nightly" ∧
      (∃ new, after.inquiries = new ++ released.2.inquiries ∧
        resolver.Consulted .development app "nightly" (new.filter (·.subject = app))) ∧
      after.inquiries.map (fun i => (i.request.version, i.outcome)) =
        [("1.0", .ok "1.1-SNAPSHOT"),
          ("nightly", .error (.error (.versionFormat (.unreadable "nightly"))))] := by
  intro resolver app operator released after
  have hcontinued : resolver.Continued operator [app] released.2 := by
    have hok : released.1 = .ok () := by decide +kernel
    exact .released (Prod.ext hok rfl)
  have hrelease : after.registry.get? app.id .release = some "nightly" := by decide +kernel
  have hphase : Phase.development.expectsSnapshot = true := rfl
  obtain ⟨new, hnew, -, hturns⟩ := resolve_inquires_after_release hcontinued hphase
  obtain ⟨release, hrelease', hconsulted⟩ := hturns app List.mem_cons_self
  obtain rfl : release = "nightly" := Option.some.inj (hrelease'.symm.trans hrelease)
  exact ⟨hcontinued, hphase, hrelease, ⟨new, hnew, hconsulted⟩, by decide +kernel⟩

end Versioning.Resolver
