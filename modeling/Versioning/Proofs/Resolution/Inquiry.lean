import Versioning.Proofs.Resolution.Turn

/-!
# What the policy is asked

Only a proposal makes inquiries to the policy; all that comes before and after it is silent
(`Resolve.Silent`). In its turn a module is asked about at most twice: first for a version after
the one that the proposal starts from, and once more, for a version after the fallback, if the
run is interactive and the first inquiry failed because of the format of a version
(`Resolver.Consulted`). In a batch run there is only the first inquiry, and what it comes to is
the version (`Resolver.nextVersion_proposed`).
-/

namespace Versioning

/-- What a policy proposes in a phase. -/
def Policy.propose (policy : Policy) (phase : Phase) (request : PolicyRequest) : Consult String :=
  if phase.expectsSnapshot then policy.development request else policy.release request

theorem Policy.propose_release (policy : Policy) (request : PolicyRequest) :
    policy.propose .release request = policy.release request := rfl

theorem Policy.propose_of_expectsSnapshot (policy : Policy) {phase : Phase}
    (hphase : phase.expectsSnapshot = true) (request : PolicyRequest) :
    policy.propose phase request = policy.development request :=
  if_pos hphase

/-- The computation asks the policy for nothing. -/
def Resolve.Silent {α : Type} (x : Resolve α) : Prop :=
  ∀ s, (x.run s).2.inquiries = s.inquiries

namespace Resolve.Silent

variable {α β : Type}

theorem pure (a : α) : Silent (Pure.pure a) :=
  fun _ => rfl

theorem throw (e : Failure) : Silent (throw e : Resolve α) :=
  fun _ => rfl

theorem get : Silent (MonadState.get : Resolve Session) :=
  fun _ => rfl

/-- A change of the session that spares the inquiries. -/
theorem modify {f : Session → Session} (hf : ∀ s, (f s).inquiries = s.inquiries) :
    Silent (modify f : Resolve Unit) :=
  hf

theorem consult (x : Consult α) : Silent (Resolve.consult x) :=
  fun _ => rfl

theorem record (id : ModuleId) (phase : Phase) (version : String) :
    Silent (Resolve.record id phase version) := by
  intro s
  rw [run_record]
  split <;> rfl

/-- Nothing is asked behind the first computation. -/
theorem inquiries_bind {x : Resolve α} {f : α → Resolve β} (hf : ∀ a, Silent (f a)) (s : Session) :
    ((x >>= f).run s).2.inquiries = (x.run s).2.inquiries := by
  rw [Failure.run_bind]
  rcases x.run s with ⟨_ | a, s'⟩
  · rfl
  · exact hf a s'

theorem bind {x : Resolve α} {f : α → Resolve β} (hx : Silent x) (hf : ∀ a, Silent (f a)) :
    Silent (x >>= f) :=
  fun s => (inquiries_bind hf s).trans (hx s)

end Resolve.Silent

namespace Resolver

open Resolve (Silent)

variable (resolver : Resolver) (phase : Phase) (m : Module)

/-- What is asked about a module in its turn, when the proposal starts from a version; the latest
    inquiry comes first. -/
inductive Consulted (base : String) : List Inquiry → Prop
  | unasked : Consulted base []
  | once {outcome : Except Failure String} :
    Consulted base [⟨phase, m, resolver.request m base, outcome⟩]
  | again {e : ReleaseError} {outcome : Except Failure String} :
    resolver.config.interactive = true → e.isVersionFormat = true →
      Consulted base [⟨phase, m, resolver.request m fallbackVersion, outcome⟩,
        ⟨phase, m, resolver.request m base, .error (.error e)⟩]

variable {resolver phase m}

/-! ### One inquiry -/

/-- An unknown policy is not asked. -/
theorem run_askPolicy_of_unknown {e : ReleaseError}
    (h : resolver.policies.get resolver.config.policy = .error e) (base : String) (s : Session) :
    (resolver.askPolicy phase m base).run s = (.error (.error e), s) := by
  rw [askPolicy, Failure.run_bind, h]
  rfl

/-- Any other one is asked for its proposal. -/
theorem askPolicy_of_known {policy : Policy}
    (h : resolver.policies.get resolver.config.policy = .ok policy) (base : String) :
    resolver.askPolicy phase m base = (do
      let suggestion ← Resolve.inquire phase m (resolver.request m base)
        (policy.propose phase (resolver.request m base))
      Resolve.report .debug ("Policy '" ++ resolver.config.policy ++ "' suggests " ++ phase.name
        ++ " version " ++ suggestion ++ " for " ++ m.id.text)
      return suggestion) := by
  rw [askPolicy, h]
  rfl

/-- It is asked once, and what it comes to is the proposal. -/
theorem askPolicy_inquires {policy : Policy}
    (h : resolver.policies.get resolver.config.policy = .ok policy) {base : String} {s t : Session}
    {outcome : Except Failure String}
    (hrun : (resolver.askPolicy phase m base).run s = (outcome, t)) :
    t.inquiries = ⟨phase, m, resolver.request m base, outcome⟩ :: s.inquiries ∧
      ((policy.propose phase (resolver.request m base)).run s.journal).1 = outcome := by
  rw [askPolicy_of_known h, Failure.run_bind, Resolve.run_inquire] at hrun
  rcases hproposal : (policy.propose phase (resolver.request m base)).run s.journal with
    ⟨_ | proposal, journal⟩ <;> rw [hproposal] at hrun <;> cases hrun <;> exact ⟨rfl, rfl⟩

/-- What the policy comes to is the proposal. -/
theorem askPolicy_outcome {policy : Policy}
    (h : resolver.policies.get resolver.config.policy = .ok policy) (base : String) (s : Session) :
    ((resolver.askPolicy phase m base).run s).1 =
      ((policy.propose phase (resolver.request m base)).run s.journal).1 :=
  (askPolicy_inquires h rfl).2.symm

/-- A proposal comes out of an inquiry. -/
theorem inquiries_of_askPolicy {base proposal : String} {s t : Session}
    (h : (resolver.askPolicy phase m base).run s = (.ok proposal, t)) :
    t.inquiries = ⟨phase, m, resolver.request m base, .ok proposal⟩ :: s.inquiries := by
  cases hpolicy : resolver.policies.get resolver.config.policy with
  | error e =>
    rw [run_askPolicy_of_unknown hpolicy] at h
    cases h
  | ok policy => exact (askPolicy_inquires hpolicy h).1

/-- That the policy is unknown has nothing to do with the format of a version. -/
theorem isVersionFormat_of_unknown {e : ReleaseError}
    (h : resolver.policies.get resolver.config.policy = .error e) : e.isVersionFormat = false := by
  rw [Policies.get] at h
  split at h <;> cases h
  rfl

/-! ### Proposals -/

section Suggest

variable {first : Bool} {s t : Session} {e : ReleaseError}

/-- The first attempt decides, unless it fails because of the format of a version. -/
theorem run_suggest_of_final
    (h : ∀ e, ((resolver.askPolicy phase m (resolver.baseVersion phase m first s.registry)).run s).1 =
      .error (.error e) → e.isVersionFormat = false) :
    (resolver.suggest phase m first).run s =
      (resolver.askPolicy phase m (resolver.baseVersion phase m first s.registry)).run s := by
  rw [suggest, Failure.run_bind, Resolve.run_get]
  dsimp only
  rw [Failure.run_tryCatch]
  rcases hrun : (resolver.askPolicy phase m _).run s with ⟨(e | _) | proposal, t⟩
  · rw [hrun] at h
    dsimp only
    rw [h e rfl]
    rfl
  · rfl
  · rfl

theorem run_suggest_of_ok {proposal : String}
    (h : (resolver.askPolicy phase m (resolver.baseVersion phase m first s.registry)).run s =
      (.ok proposal, t)) :
    (resolver.suggest phase m first).run s = (.ok proposal, t) := by
  rw [run_suggest_of_final, h]
  rw [h]
  exact nofun

variable (hrun : (resolver.askPolicy phase m (resolver.baseVersion phase m first s.registry)).run s =
  (.error (.error e), t)) (hformat : e.isVersionFormat = true)
include hrun hformat

/-- If it does, an interactive run makes a second attempt from the fallback version, after a
    warning, -/
theorem run_suggest_of_versionFormat (hinteractive : resolver.config.interactive = true) :
    ∃ messages, (resolver.suggest phase m first).run s =
      (resolver.askPolicy phase m fallbackVersion).run
        { t with journal := ⟨messages, t.journal.requests⟩ } := by
  rw [suggest, Failure.run_bind, Resolve.run_get]
  dsimp only
  rw [Failure.run_tryCatch, hrun]
  dsimp only
  rw [hformat, if_neg (by simp), if_pos hinteractive, Failure.run_bind, Resolve.run_report]
  exact ⟨_, rfl⟩

/-- and a batch run fails because of it. -/
theorem run_suggest_of_versionFormat_batch (hbatch : resolver.config.interactive = false) :
    ∃ text, (resolver.suggest phase m first).run s = (.error (.error (.policy text e)), t) := by
  rw [suggest, Failure.run_bind, Resolve.run_get]
  dsimp only
  rw [Failure.run_tryCatch, hrun]
  dsimp only
  rw [hformat, if_neg (by simp), if_neg (by simp [hbatch])]
  exact ⟨_, rfl⟩

end Suggest

variable (resolver phase m) in
/-- A first attempt decides, or it fails because of the format of a version. -/
theorem final_or_versionFormat (base : String) (s : Session) :
    (∀ e, ((resolver.askPolicy phase m base).run s).1 = .error (.error e) →
      e.isVersionFormat = false) ∨
    ∃ e t, (resolver.askPolicy phase m base).run s = (.error (.error e), t) ∧
      e.isVersionFormat = true := by
  rcases (resolver.askPolicy phase m base).run s with ⟨(e | _) | proposal, t⟩
  · cases hformat : e.isVersionFormat with
    | true => exact .inr ⟨e, t, rfl, hformat⟩
    | false =>
      refine .inl fun e' he' => ?_
      cases he'
      exact hformat
  · exact .inl nofun
  · exact .inl nofun

variable (resolver phase m) in
/-- A proposal asks at most twice. -/
theorem suggest_consulted (first : Bool) (s : Session) :
    ∃ new, ((resolver.suggest phase m first).run s).2.inquiries = new ++ s.inquiries ∧
      resolver.Consulted phase m (resolver.baseVersion phase m first s.registry) new := by
  cases hpolicy : resolver.policies.get resolver.config.policy with
  | error e =>
    rw [run_suggest_of_final] <;> rw [run_askPolicy_of_unknown hpolicy]
    · exact ⟨[], rfl, .unasked⟩
    · rintro _ ⟨⟩
      exact isVersionFormat_of_unknown hpolicy
  | ok policy =>
    obtain hfinal | ⟨e, t, hrun, hformat⟩ := resolver.final_or_versionFormat phase m
      (resolver.baseVersion phase m first s.registry) s
    · rw [run_suggest_of_final hfinal]
      exact ⟨[_], (askPolicy_inquires hpolicy rfl).1, .once⟩
    · have hasked := (askPolicy_inquires hpolicy hrun).1
      cases hinteractive : resolver.config.interactive with
      | false =>
        obtain ⟨text, hsuggest⟩ := run_suggest_of_versionFormat_batch hrun hformat hinteractive
        rw [hsuggest]
        exact ⟨[_], hasked, .once⟩
      | true =>
        obtain ⟨messages, hsuggest⟩ := run_suggest_of_versionFormat hrun hformat hinteractive
        have hasked' := (askPolicy_inquires hpolicy hsuggest.symm).1
        rw [hasked] at hasked'
        exact ⟨[_, _], hasked', .again hinteractive hformat⟩

/-! ### Batch runs -/

/-- In a batch run, a proposal is one for the version that it starts from. -/
theorem run_suggest_of_batch (hbatch : resolver.config.interactive = false) {first : Bool}
    {s t : Session} {version : String}
    (h : (resolver.suggest phase m first).run s = (.ok version, t)) :
    (resolver.askPolicy phase m (resolver.baseVersion phase m first s.registry)).run s =
      (.ok version, t) := by
  obtain hfinal | ⟨e, t', hrun, hformat⟩ := resolver.final_or_versionFormat phase m
    (resolver.baseVersion phase m first s.registry) s
  · exact (run_suggest_of_final hfinal).symm.trans h
  · -- An error of format stays one.
    obtain ⟨text, hsuggest⟩ := run_suggest_of_versionFormat_batch hrun hformat hbatch
    cases hsuggest.symm.trans h

theorem run_checked_eq_ok_iff {version accepted : String} {s t : Session} :
    (checked phase version).run s = (.ok accepted, t) ↔
      isSnapshot version = phase.expectsSnapshot ∧ version = accepted ∧ s = t := by
  rw [checked]
  split
  · next hmarker =>
    refine ⟨fun h => ?_, ?_⟩
    · cases h
      exact ⟨hmarker, rfl, rfl⟩
    · rintro ⟨-, rfl, rfl⟩
      rfl
  · next hmarker =>
    refine iff_of_false (fun h => ?_) fun h => hmarker h.1
    cases h

/-- A module that is neither left alone nor fixed gets the proposal. -/
theorem nextVersion_proposed (hbatch : resolver.config.interactive = false) {first : Bool}
    (hchanges : ¬resolver.keepsCurrent phase m.version = true)
    (hfree : resolver.fixedVersion? phase m first = none) {s t : Session} {version : String}
    (h : (resolver.nextVersion phase m first).run s = (.ok version, t)) :
    (resolver.askPolicy phase m (resolver.baseVersion phase m first s.registry)).run s =
        (.ok version, t) ∧ isSnapshot version = phase.expectsSnapshot := by
  rw [nextVersion, if_neg hchanges, hfree] at h
  obtain ⟨suggestion, s', hsuggest, hchecked⟩ := Failure.run_bind_eq_ok_iff.1 h
  rw [hbatch, if_neg Bool.false_ne_true] at hchecked
  obtain ⟨hmarker, rfl, rfl⟩ := run_checked_eq_ok_iff.1 hchecked
  exact ⟨run_suggest_of_batch hbatch hsuggest, hmarker⟩

/-! ### The turn of a module -/

theorem checked_silent (version : String) : Silent (checked phase version) := by
  rw [checked]
  split
  · exact .pure _
  · exact .throw _

theorem converse_silent (q : Question) (operator : Operator) :
    Silent (converse phase q operator) := by
  induction operator with
  | away failure =>
    refine (Silent.modify ?_).bind fun _ => .throw _
    exact fun _ => rfl
  | present reply after ih =>
    rw [converse]
    refine (Silent.modify ?_).bind fun _ => ?_
    · exact fun _ => rfl
    cases reply q with
    | error failure => exact .throw _
    | ok answer =>
      dsimp only
      split
      · exact .pure _
      · split
        · exact (Silent.consult _).bind fun _ => ih q
        · exact .throw _

variable (resolver phase m) in
/-- In its turn a module is only asked about for its proposal, however often the operator is asked
    again for an answer. -/
theorem resolveModule_consulted (first : Bool) (s : Session) :
    ∃ new, ((resolver.resolveModule phase m first).run s).2.inquiries = new ++ s.inquiries ∧
      resolver.Consulted phase m (resolver.baseVersion phase m first s.registry) new := by
  rw [resolveModule, Resolve.run_mapError, nextVersion]
  split
  · -- The phase leaves the module alone.
    have hsilent : Silent (do
        Resolve.report .debug (m.id.text ++ " keeps " ++ phase.name ++ " version " ++ m.version)
        return m.version) := (Silent.consult _).bind fun _ => .pure _
    exact ⟨[], hsilent s, .unasked⟩
  · split
    · next version _ =>
      have hsilent : Silent (do
          let version ← checked phase version
          Resolve.report .debug (m.id.text ++ " " ++ phase.name ++ " version set to " ++ version)
          return version) :=
        (checked_silent _).bind fun _ => (Silent.consult _).bind fun _ => .pure _
      exact ⟨[], hsilent s, .unasked⟩
    · obtain ⟨new, hnew, hconsulted⟩ := resolver.suggest_consulted phase m first s
      refine ⟨new, ?_, hconsulted⟩
      rw [← hnew]
      refine Silent.inquiries_bind (fun suggestion => ?_) s
      split
      · exact Silent.get.bind fun t => converse_silent _ t.operator
      · exact checked_silent suggestion

end Resolver

end Versioning
