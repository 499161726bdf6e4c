import Versioning.Proofs.Policy.Start
import Versioning.Proofs.Resolution.Acceptance
import Versioning.Proofs.Resolution.Errors

/-!
# What blocks an interactive run

When a version cannot be read, an interactive run goes on from the fallback version, so that there
is something to put to the operator. The fallback takes the place of the version that the proposal
starts from, and of nothing else: where the release that commits announce starts from a tag, it
does so the second time as well. If the log answers every call clearly, such a tag is all that can
block the run (`Resolver.Suggests`), apart from a number that is the last word.

The errors of a run are those of its steps (`Resolve.FailsWith`). Only a proposal can fail because
of the format of a version; so a run that ends with such an error has met a tag that the rules take
for a version and that is none (`Resolver.blocked_only_by_tag`).
-/

namespace Versioning

namespace Resolver

open Resolve (FailsWith)
open CommitHistory (anchorVersions window step wordLimit)

variable {resolver : Resolver} {rules : Rules} {phase : Phase} {m : Module} {base : String}
  {s t : Session}

/-! ### Questions -/

/-- A question is put to the operator once or more often, and no other one. -/
theorem exists_asked_converse (q : Question) (operator : Operator) (s : Session) :
    ∃ n, ((converse phase q operator).run s).2.asked = List.replicate (n + 1) q ++ s.asked := by
  induction operator generalizing s with
  | away failure => exact ⟨0, rfl⟩
  | present reply after ih =>
    rw [converse]
    cases hreply : reply q with
    | error failure => exact ⟨0, rfl⟩
    | ok answer =>
      dsimp only
      by_cases hmarker : isSnapshot answer = phase.expectsSnapshot
      · rw [if_pos hmarker]
        exact ⟨0, rfl⟩
      · rw [if_neg hmarker]
        split
        · -- It is asked again, after this time.
          obtain ⟨n, hn⟩ := ih q { s with
            asked := q :: s.asked
            operator := after q
            journal := { s.journal with messages :=
              ⟨.warn, answer ++ " is not a snapshot version, asking again"⟩ ::
                s.journal.messages } }
          refine ⟨n + 1, hn.trans ?_⟩
          rw [List.replicate_succ' (n := n + 1), List.append_assoc, List.singleton_append]
        · exact ⟨0, rfl⟩

variable (resolver phase m) in
/-- A policy puts no questions to the operator. -/
theorem asked_askPolicy (base : String) (s : Session) :
    ((resolver.askPolicy phase m base).run s).2.asked = s.asked :=
  (resolver.askPolicy_unattended phase m base).asked_eq s

variable (resolver phase m) in
/-- In an interactive run, a proposal is what one attempt of the policy comes to: the one for the
    version that it starts from, unless that fails because of the format of a version, and then the
    one for the fallback version. -/
theorem exists_attempt (hinteractive : resolver.config.interactive = true) (first : Bool)
    (s : Session) : ∃ base t, t.asked = s.asked ∧
      (resolver.suggest phase m first).run s = (resolver.askPolicy phase m base).run t ∧
      (base = resolver.baseVersion phase m first s.registry ∧
          (∀ e, ((resolver.askPolicy phase m base).run t).1 = .error (.error e) →
            e.isVersionFormat = false) ∨
        base = fallbackVersion) := by
  obtain hfinal | ⟨e, t, hrun, hformat⟩ := resolver.final_or_versionFormat phase m
    (resolver.baseVersion phase m first s.registry) s
  · exact ⟨_, s, rfl, run_suggest_of_final hfinal, .inl ⟨rfl, hfinal⟩⟩
  · obtain ⟨messages, hsuggest⟩ := run_suggest_of_versionFormat hrun hformat hinteractive
    have hasked := resolver.asked_askPolicy phase m
      (resolver.baseVersion phase m first s.registry) s
    rw [hrun] at hasked
    refine ⟨fallbackVersion, _, ?_, hsuggest, .inr rfl⟩
    exact hasked

theorem asked_suggest (hinteractive : resolver.config.interactive = true) (first : Bool)
    (s : Session) : ((resolver.suggest phase m first).run s).2.asked = s.asked := by
  obtain ⟨base, t, hsame, hattempt, -⟩ := resolver.exists_attempt phase m hinteractive first s
  rw [hattempt, asked_askPolicy, hsame]

/-- Where a proposal is due, it is put to the operator. -/
theorem exists_asked_nextVersion (hinteractive : resolver.config.interactive = true)
    {first : Bool} (hchanges : ¬resolver.keepsCurrent phase m.version = true)
    (hfree : resolver.fixedVersion? phase m first = none) {proposal : String}
    (h : ((resolver.suggest phase m first).run s).1 = .ok proposal) :
    ∃ n, ((resolver.nextVersion phase m first).run s).2.asked =
      List.replicate (n + 1) ⟨phase.question m.name m.id.text, proposal⟩ ++ s.asked := by
  have hunasked : ((resolver.suggest phase m first).run s).2.asked = s.asked :=
    asked_suggest hinteractive first s
  rw [nextVersion, if_neg hchanges, hfree, Failure.run_bind]
  rcases hrun : (resolver.suggest phase m first).run s with ⟨_ | text, t⟩ <;>
    rw [hrun] at h hunasked <;> cases h
  dsimp only
  rw [if_pos hinteractive, Failure.run_bind, Resolve.run_get, ← hunasked]
  exact exists_asked_converse _ t.operator t

/-! ### Proposals -/

variable (resolver rules phase m) in
/-- The release of a module starts from a tag, which the log shows as the latest release. -/
def Tagged (tag : String) : Prop :=
  phase = .release ∧ resolver.config.policy ∈ Policies.conventionalIds ∧
    ∃ log, resolver.log? = some log ∧ log.Shows rules m.directory tag

variable (resolver rules phase m) in
/-- What a proposal for a module can come to: a text, an overflow because of a number or of the
    limits of a search, or the error that a tag is no version. -/
inductive Suggests (base : String) : Except Failure String → Prop
  | text {text : String} : Suggests base (.ok text)
  | last {start : String} {v : Version} {level : BumpLevel} :
    start = base ∨ resolver.Tagged rules phase m start → Version.parse? start = some v →
      v.IsLast level → Suggests base (.error .overflow)
  | exceeded {log : ChangeLog} {j : Journal} : phase = .release →
    resolver.config.policy ∈ Policies.conventionalIds → resolver.log? = some log →
      ((CommitHistory.mine log m.directory rules resolver.config.mining).run j).1 =
        .error .overflow → Suggests base (.error .overflow)
  | unreadable {tag : String} : resolver.Tagged rules phase m tag → Version.parse? tag = none →
    Suggests base (.error (.error (.versionFormat (.unreadable tag))))

/-- Unless the version that it starts from is none. -/
theorem suggests_of_proposes {start : String}
    (hstart : start = base ∨ resolver.Tagged rules phase m start)
    {outcome : Except Failure String} (h : Policy.Proposes start outcome) :
    resolver.Suggests rules phase m base outcome ∨ Version.parse? base = none ∧
      outcome = .error (.error (.versionFormat (.unreadable base))) := by
  cases h with
  | unreadable hnone =>
    rcases hstart with rfl | htag
    · exact .inr ⟨hnone, rfl⟩
    · exact .inl (.unreadable htag hnone)
  | last hv hlast => exact .inl (.last hstart hv hlast)
  | text => exact .inl .text

/-- The fallback version is one, and has a next one of every level. -/
theorem Suggests.of_fallback {outcome : Except Failure String}
    (h : resolver.Suggests rules phase m fallbackVersion outcome) :
    resolver.Suggests rules phase m base outcome := by
  have hread : Version.parse? fallbackVersion = some ⟨.two 1 0, none, false⟩ := by decide +kernel
  cases h with
  | text => exact .text
  | @last start v level hstart hv hlast =>
    rcases hstart with rfl | htag
    · obtain rfl := Option.some.inj (hread.symm.trans hv)
      rw [← Version.bump?_eq_none_iff] at hlast
      cases level <;> cases hlast
    · exact .last (.inr htag) hv hlast
  | exceeded hphase hpolicy hlog hmine => exact .exceeded hphase hpolicy hlog hmine
  | unreadable htag hnone => exact .unreadable htag hnone

section Clear

variable {config : RulesConfig}
  (hpolicy : resolver.config.policy ∈ Policies.defaultId :: Policies.conventionalIds)
  (hbuiltin : resolver.policies.get resolver.config.policy =
    Policies.builtin.get resolver.config.policy)
  (hconfig : RulesConfig.ofTable? resolver.config.policyConfig? = .ok config)
  (hrules : Rules.ofConfig config = .ok rules)
  (hclear : ∀ log, resolver.log? = some log → log.Clear rules)

include hpolicy hbuiltin hconfig hrules hclear

/-- What the policy is asked for is a proposal, unless the version that it starts from is none. -/
theorem askPolicy_suggests (phase : Phase) (m : Module) (base : String) (s : Session) :
    resolver.Suggests rules phase m base ((resolver.askPolicy phase m base).run s).1 ∨
      Version.parse? base = none ∧ ((resolver.askPolicy phase m base).run s).1 =
        .error (.error (.versionFormat (.unreadable base))) := by
  have hbase : (resolver.request m base).version = base := rfl
  rcases Policies.builtin_get hpolicy with ⟨-, hget⟩ | ⟨hconventional, hget⟩
  · rw [askPolicy_outcome (hbuiltin.trans hget)]
    refine suggests_of_proposes (.inl hbase) ?_
    by_cases hphase : phase.expectsSnapshot = true
    · rw [Policy.propose_of_expectsSnapshot _ hphase]
      exact Policy.proposes_development_markerOnly _ _
    · obtain rfl : phase = .release := by simpa [Phase.expectsSnapshot] using hphase
      rw [Policy.propose_release]
      exact Policy.proposes_release_markerOnly _ _
  · rw [askPolicy_outcome (hbuiltin.trans hget)]
    by_cases hphase : phase.expectsSnapshot = true
    · rw [Policy.propose_of_expectsSnapshot _ hphase]
      exact suggests_of_proposes (.inl hbase) (Policy.proposes_development_conventional _ _)
    · obtain rfl : phase = .release := by simpa [Phase.expectsSnapshot] using hphase
      rw [Policy.propose_release]
      obtain ⟨log, hlog, hmine, hresult⟩ | ⟨start, hstart, hproposes⟩ :=
        Policy.Conventional.release_of_clear (resolver.request m base) hconfig hrules hclear
          s.journal
      · rw [hresult]
        exact .inl (.exceeded rfl hconventional hlog hmine)
      · refine suggests_of_proposes (hstart.imp_right fun htag => ?_) hproposes
        exact ⟨rfl, hconventional, htag⟩

/-- The release after a history starts from its latest release, whatever version is asked for. -/
theorem askPolicy_of_serves (hconventional : resolver.config.policy ∈ Policies.conventionalIds)
    {log : ChangeLog} (hlog : resolver.log? = some log) {history : List ChangeSet}
    (hserves : log.Serves m.directory history)
    (hroom : history.length + step resolver.config.mining < wordLimit) (base : String)
    (s : Session) :
    let page := history.take (window resolver.config.mining history.length)
    (anchorVersions rules page).length < 2 ∧ ((resolver.askPolicy .release m base).run s).1 =
      Policy.Conventional.follow (Policy.Conventional.level rules page)
        ((anchorVersions rules page).headD base) := by
  intro page
  have hfew : (anchorVersions rules page).length < 2 := by
    obtain ⟨page', hpage, hfew⟩ := hclear log hlog []
      ⟨m.directory, window resolver.config.mining history.length⟩
    obtain rfl : page = page' := Except.ok.inj ((hserves _ _).symm.trans hpage)
    exact hfew
  have hget : resolver.policies.get resolver.config.policy = .ok .conventional := by
    rcases Policies.builtin_get hpolicy with ⟨hdefault, -⟩ | ⟨-, hget⟩
    · rw [hdefault] at hconventional
      exact absurd hconventional (by decide)
    · exact hbuiltin.trans hget
  refine ⟨hfew, ?_⟩
  have hrun := @Policy.Conventional.run_release (resolver.request m base) config rules log history
    hconfig hrules hlog hserves hroom s.journal
  rw [askPolicy_outcome hget, Policy.propose_release]
  exact hrun.trans (if_neg (Nat.not_le.2 hfew))

variable (hinteractive : resolver.config.interactive = true)

include hinteractive

/-- There is no release after a history exactly if its latest release has a tag that is no
    version. -/
theorem suggest_eq_error_iff (hconventional : resolver.config.policy ∈ Policies.conventionalIds)
    {log : ChangeLog} (hlog : resolver.log? = some log) {history : List ChangeSet}
    (hserves : log.Serves m.directory history)
    (hroom : history.length + step resolver.config.mining < wordLimit) {first : Bool}
    {s : Session} {e : ReleaseError} :
    ((resolver.suggest .release m first).run s).1 = .error (.error e) ↔
      ∃ tag, anchorVersions rules
          (history.take (window resolver.config.mining history.length)) = [tag] ∧
        Version.parse? tag = none ∧ e = .versionFormat (.unreadable tag) := by
  obtain ⟨base, t, -, hattempt, hbase⟩ := resolver.exists_attempt .release m hinteractive first s
  obtain ⟨hfew, hasked⟩ := askPolicy_of_serves hpolicy hbuiltin hconfig hrules hclear
    hconventional hlog hserves hroom base t
  rw [hattempt]
  rw [hasked] at hbase ⊢
  simp only [Policy.Conventional.follow_eq_error_iff] at hbase ⊢
  generalize anchorVersions rules (history.take _) = versions at *
  constructor
  · rintro ⟨hnone, rfl⟩
    rcases versions with _ | ⟨tag, _ | ⟨other, more⟩⟩
    · -- Without a release, one of the two attempts starts from a version.
      rcases hbase with ⟨-, hformat⟩ | rfl
      · cases hformat _ ⟨hnone, rfl⟩
      · exact absurd hnone (by decide +kernel)
    · exact ⟨tag, rfl, hnone, rfl⟩
    · rw [List.length_cons, List.length_cons] at hfew
      omega
  · rintro ⟨tag, rfl, hnone, rfl⟩
    exact ⟨hnone, rfl⟩

/-- What is left of the errors of the policy is that a tag is no version. -/
theorem suggest_suggests (phase : Phase) (m : Module) (first : Bool) (s : Session) :
    resolver.Suggests rules phase m (resolver.baseVersion phase m first s.registry)
      ((resolver.suggest phase m first).run s).1 := by
  obtain ⟨base, t, -, hattempt, hbase⟩ := resolver.exists_attempt phase m hinteractive first s
  have hasked := askPolicy_suggests hpolicy hbuiltin hconfig hrules hclear phase m base t
  rw [hattempt]
  rcases hbase with ⟨rfl, hformat⟩ | rfl
  · refine hasked.resolve_right fun ⟨_, herror⟩ => ?_
    cases hformat _ herror
  · refine (hasked.resolve_right fun ⟨hnone, _⟩ => ?_).of_fallback
    exact absurd hnone (by decide +kernel)

/-- In an interactive run under a built-in policy with rules, if the log answers every call clearly,
    a proposal is made whenever one is due, and is put to the operator; the only error that can
    stand in its place is that the tag which a release starts from is no version, and after a
    history whose latest release has such a tag there is no other way. No other error of a run is
    about the format of a version. -/
theorem blocked_only_by_tag :
    (∀ (phase : Phase) (m : Module) (first : Bool) (s : Session),
      resolver.Suggests rules phase m (resolver.baseVersion phase m first s.registry)
        ((resolver.suggest phase m first).run s).1) ∧
    (∀ (m : Module) (first : Bool) (s : Session) (log : ChangeLog) (history : List ChangeSet),
      resolver.config.policy ∈ Policies.conventionalIds → resolver.log? = some log →
      log.Serves m.directory history →
      history.length + step resolver.config.mining < wordLimit →
        ∀ e, ((resolver.suggest .release m first).run s).1 = .error (.error e) ↔
          ∃ tag, anchorVersions rules
              (history.take (window resolver.config.mining history.length)) = [tag] ∧
            Version.parse? tag = none ∧ e = .versionFormat (.unreadable tag)) ∧
    (∀ (phase : Phase) (m : Module) (first : Bool) (s : Session) (proposal : String),
      ¬resolver.keepsCurrent phase m.version = true →
      resolver.fixedVersion? phase m first = none →
      ((resolver.suggest phase m first).run s).1 = .ok proposal →
        ∃ n, ((resolver.nextVersion phase m first).run s).2.asked =
          List.replicate (n + 1) ⟨phase.question m.name m.id.text, proposal⟩ ++ s.asked) ∧
    ∀ (reactor : List Module) (phases : List Phase) (s : Session) (e : ReleaseError),
      ((resolver.executePhases reactor phases).run s).1 = .error (.error e) →
      e.rootCause.kind = .versionFormat →
        ∃ phase ∈ phases, ∃ m ∈ reactor, ∃ tag, resolver.Tagged rules phase m tag ∧
          Version.parse? tag = none ∧ e.rootCause = .versionFormat (.unreadable tag) := by
  have hsuggests := suggest_suggests hpolicy hbuiltin hconfig hrules hclear hinteractive
  refine ⟨hsuggests, ?_, ?_, fun reactor phases => ?_⟩
  · intro m first s log history hconventional hlog hserves hroom e
    exact suggest_eq_error_iff hpolicy hbuiltin hconfig hrules hclear hinteractive hconventional
      hlog hserves hroom
  · intro phase m first s proposal hchanges hfree hproposal
    exact exists_asked_nextVersion hinteractive hchanges hfree hproposal
  · refine executePhases_failsWith (fun fault => nofun) fun phase hphase m hm first => ?_
    refine resolveModule_failsWith (nextVersion_failsWith (fun e he hkind => ?_) ?_)
    · rcases he with he | he <;> cases hkind.symm.trans he
    · intro s e he _
      have hsuggest := hsuggests phase m first s
      rw [he] at hsuggest
      cases hsuggest with
      | unreadable htag hnone => exact ⟨phase, hphase, m, hm, _, htag, hnone, rfl⟩

end Clear

/-- A module whose version cannot be read is developed further as what follows the fallback version,
    if the operator likes. -/
theorem asked_although_unreadable :
    let log : ChangeLog := .ofHistory [⟨"fix: a", []⟩]
    let resolver : Resolver := ⟨{ policy := "ccsemver" }, .builtin, some log⟩
    let m : Module := .ofId ⟨"g", "app"⟩ "unknown"
    let session : Session := .start (.scripted [""])
    resolver.config.policy ∈ Policies.defaultId :: Policies.conventionalIds ∧
      resolver.policies.get resolver.config.policy = Policies.builtin.get resolver.config.policy ∧
      RulesConfig.ofTable? resolver.config.policyConfig? = .ok .none ∧
      Rules.ofConfig .none = .ok .builtin ∧
      (∀ log, resolver.log? = some log → log.Clear .builtin) ∧
      resolver.config.interactive = true ∧ Version.parse? m.version = none ∧
      ∃ n, ((resolver.nextVersion .development m true).run session).2.asked =
        List.replicate (n + 1) ⟨Phase.development.question "app" "g:app", "1.1.0-SNAPSHOT"⟩ := by
  intro log resolver m session
  have hpolicy : resolver.config.policy ∈ Policies.defaultId :: Policies.conventionalIds := by
    decide
  have hclear : ∀ log, resolver.log? = some log → log.Clear .builtin := by
    intro log' hlog
    obtain rfl := Option.some.inj hlog
    exact ChangeLog.clear_ofHistory (by decide +kernel)
  have hproposal :
      ((resolver.suggest .development m true).run session).1 = .ok "1.1.0-SNAPSHOT" := by
    decide +kernel
  obtain ⟨-, -, hasks, -⟩ :=
    blocked_only_by_tag hpolicy rfl rfl Rules.ofConfig_none hclear rfl
  obtain ⟨n, hn⟩ := hasks .development m true session _ (by decide) rfl hproposal
  rw [show session.asked = [] from rfl, List.append_nil] at hn
  exact ⟨hpolicy, rfl, rfl, Rules.ofConfig_none, hclear, rfl, by decide +kernel, n, hn⟩

/-- A tag that the rules take for a version, but whose number exceeds the largest word, blocks the
    release of a module with a readable version: nothing is put to the operator. -/
theorem blocked_by_tag :
    let tag := "99999999999999999999"
    let log : ChangeLog := .ofHistory [⟨"fix: a", []⟩, ⟨"release", [tag]⟩]
    let resolver : Resolver := ⟨{ policy := "ccsemver" }, .builtin, some log⟩
    let m : Module := .ofId ⟨"g", "app"⟩ "1.0-SNAPSHOT"
    let session : Session := .start (.scripted ["2.0"])
    let run := (resolver.resolve .release [m]).run session
    (resolver.config.interactive = true ∧
      resolver.config.policy ∈ Policies.defaultId :: Policies.conventionalIds ∧
      resolver.policies.get resolver.config.policy = Policies.builtin.get resolver.config.policy ∧
      RulesConfig.ofTable? resolver.config.policyConfig? = .ok .none ∧
      Rules.ofConfig .none = .ok .builtin ∧ log.Clear .builtin) ∧
    (Version.parse? m.version).isSome = true ∧
      ((resolver.suggest .release m true).run session).1 =
        .error (.error (.versionFormat (.unreadable tag))) ∧
      run.1 = .error (.error (.inModule "g:app" .release (.versionFormat (.unreadable tag)))) ∧
      run.2.asked = [] := by
  intro tag log resolver m session run
  have hpolicy : resolver.config.policy ∈ Policies.defaultId :: Policies.conventionalIds := by
    decide
  have hclear : log.Clear .builtin := ChangeLog.clear_ofHistory (by decide +kernel)
  have hclear' : ∀ log', resolver.log? = some log' → log'.Clear .builtin := by
    intro log' hlog
    obtain rfl := Option.some.inj hlog
    exact hclear
  have hsuggest : ((resolver.suggest .release m true).run session).1 =
      .error (.error (.versionFormat (.unreadable tag))) :=
    (suggest_eq_error_iff hpolicy rfl rfl Rules.ofConfig_none hclear' rfl (by decide) rfl
      (ChangeLog.serves_ofHistory _ _) (by decide)).2
      ⟨tag, by decide +kernel, by decide +kernel, rfl⟩
  have hasked : ((resolver.suggest .release m true).run session).2.asked = [] :=
    asked_suggest rfl true session
  refine ⟨⟨rfl, hpolicy, rfl, rfl, Rules.ofConfig_none, hclear⟩, by decide +kernel, hsuggest, ?_⟩
  -- The first turn of the phase ends with the proposal.
  rcases hrun : (resolver.suggest .release m true).run session with ⟨outcome, t⟩
  rw [hrun] at hsuggest hasked
  obtain rfl : outcome = .error (.error (.versionFormat (.unreadable tag))) := hsuggest
  have hmodule : (resolver.resolveModule .release m true).run session =
      (.error (.error (.inModule "g:app" .release (.versionFormat (.unreadable tag)))), t) := by
    rw [resolveModule, Resolve.run_mapError, nextVersion, if_neg (by decide),
      show resolver.fixedVersion? .release m true = none from rfl, Failure.run_bind, hrun]
    rfl
  have hphase : run =
      (.error (.error (.inModule "g:app" .release (.versionFormat (.unreadable tag)))), t) := by
    rw [show run = (resolver.resolveEach .release true [m]).run session from rfl, resolveEach,
      Failure.run_bind, hmodule]
  rw [hphase]
  exact ⟨rfl, hasked⟩

end Resolver

end Versioning
