import Versioning.Proofs.History.Calls
import Versioning.Proofs.Resolution.Offline

/-!
# When the history is read

A policy that proposes what commits announce reads the history for a release and for nothing else. So
a run asks the change log in the turns of a release only, and of these only in the ones of modules whose
version is not fixed (`Resolver.Searched`). Such a turn searches the directory of the module once, or
a second time in an interactive run, when the first attempt has failed because of the format of a
version.

A run goes from turn to turn, and a turn that fails is the last one. `Resolver.reachedVisits` are the
turns that a run comes to; what it asks of the log is what these ask, one after the other
(`Resolver.Asked`).
-/

namespace Versioning

/-! ### One attempt -/

namespace Policy.Conventional

open CommitHistory

/-- What the proposal of a release comes to after a search: the step from the version that was found,
    or from the current one. -/
def attempt (rules : Rules) (current : String) : Except Failure CommitHistory → Except Failure String
  | .ok found => follow (found.bumpLevel rules) (found.tag?.getD current)
  | .error .overflow => .error .overflow
  | .error (.error e) =>
    .error (.error (.policy "Unable to obtain the information from the SCM history" e))

/-- A step from a version asks nothing of the log. -/
theorem requests_suggestRelease (rules : Rules) (found : CommitHistory) (current : String)
    (j : Journal) : ((suggestRelease rules found current).run j).2.requests = j.requests := by
  simp only [suggestRelease, Failure.run_bind, Consult.run_report, readVersion]
  cases Version.parse? (found.tag?.getD current) with
  | none => simp
  | some v => cases h : v.bump? (found.bumpLevel rules) <;> simp [h]

theorem mine_searches (log : ChangeLog) (directory : String) (rules : Rules) (limits : MiningLimits)
    (j : Journal) : ∃ calls,
      Searches log directory rules limits j.requests (firstLimit limits) none calls
        ((mine log directory rules limits).run j).1 ∧
      ((mine log directory rules limits).run j).2.requests =
        requestsOf directory calls ++ j.requests :=
  mineFrom_searches (Nat.succ_pos wordLimit)
    (by omega : wordLimit < wordLimit + 1 + firstLimit limits) none j

/-- The proposal of a release makes one search. -/
theorem release_searches (request : PolicyRequest) {config : RulesConfig} {rules : Rules}
    {log : ChangeLog} (hconfig : RulesConfig.ofTable? request.settings? = .ok config)
    (hrules : Rules.ofConfig config = .ok rules) (hlog : request.log? = some log) (j : Journal) :
    ∃ calls result,
      Searches log request.directory rules request.limits j.requests (firstLimit request.limits) none
        calls result ∧
      ((conventional.release request).run j).2.requests =
        requestsOf request.directory calls ++ j.requests ∧
      ((conventional.release request).run j).1 = attempt rules request.version result := by
  obtain ⟨calls, hsearches, hrequests⟩ :=
    mine_searches log request.directory rules request.limits j
  refine ⟨calls, _, hsearches, ?_⟩
  simp only [conventional, Failure.run_bind, hconfig, hrules, Consult.run_ofExcept_ok,
    Conventional.history, hlog, Consult.run_mapError]
  generalize (mine log request.directory rules request.limits).run j = mined at hrequests ⊢
  obtain ⟨(e | _) | found, j'⟩ := mined
  · exact ⟨hrequests, rfl⟩
  · exact ⟨hrequests, rfl⟩
  · dsimp only
    rw [requests_suggestRelease, run_suggestRelease]
    exact ⟨hrequests, rfl⟩

/-- Without a log, it makes none. -/
theorem requests_release_of_no_log {request : PolicyRequest} (hlog : request.log? = none)
    (j : Journal) : ((conventional.release request).run j).2.requests = j.requests := by
  simp only [conventional, Failure.run_bind, Conventional.history, hlog]
  cases RulesConfig.ofTable? request.settings? with
  | error e => rfl
  | ok config =>
    simp only [Consult.run_ofExcept_ok]
    cases Rules.ofConfig config with
    | error e => rfl
    | ok rules =>
      simp only [Consult.run_ofExcept_ok, Consult.run_report, Failure.run_pure]
      rw [requests_suggestRelease]

end Policy.Conventional

/-- Without a log, nothing is asked. -/
theorem Policies.offlineIn_of_no_log (config : Config) (phase : Phase) :
    Resolver.OfflineIn ⟨config, builtin, none⟩ phase := by
  intro policy hpolicy m base j
  by_cases hblind : config.policy = defaultId ∨ phase ≠ .release
  · exact (blind_of_builtin_get hpolicy hblind).offline _ j
  · obtain ⟨hdefault, hphase⟩ := not_or.1 hblind
    obtain rfl : phase = .release := Classical.not_not.1 hphase
    obtain ⟨hdefault', -⟩ | ⟨-, hget⟩ := builtin_get (mem_of_builtin_get hpolicy)
    · exact absurd hdefault' hdefault
    · obtain rfl : Policy.conventional = policy := Except.ok.inj (hget.symm.trans hpolicy)
      exact Policy.Conventional.requests_release_of_no_log rfl j

/-! ### Turns -/

namespace Resolver

open CommitHistory
open Policy.Conventional (attempt)
open Resolve (Offline)

variable (resolver : Resolver) (rules : Rules) (log : ChangeLog)

/-- What is asked of the log in a turn, after some requests: nothing, unless the turn is about a release
    whose version is not fixed. Otherwise the directory of the module is searched, and searched again
    if the run is interactive and the first attempt has failed because of the format of a version. -/
inductive Searched (v : Visit) (asked : List PageRequest) : List PageRequest → Prop
  | spared : v.phase ≠ .release ∨ (resolver.fixedVersion? v.phase v.subject v.first).isSome = true →
      Searched v asked []
  | once {calls : List Call} {result : Except Failure CommitHistory} :
    v.phase = .release → resolver.fixedVersion? v.phase v.subject v.first = none →
      Searches log v.subject.directory rules resolver.config.mining asked
        (firstLimit resolver.config.mining) none calls result →
      (resolver.config.interactive = true → ∀ e,
        attempt rules v.subject.version result = .error (.error e) → e.isVersionFormat = false) →
      Searched v asked (requestsOf v.subject.directory calls)
  | twice {calls calls' : List Call} {result result' : Except Failure CommitHistory}
      {e : ReleaseError} :
    v.phase = .release → resolver.fixedVersion? v.phase v.subject v.first = none →
      Searches log v.subject.directory rules resolver.config.mining asked
        (firstLimit resolver.config.mining) none calls result →
      resolver.config.interactive = true →
      attempt rules v.subject.version result = .error (.error e) → e.isVersionFormat = true →
      Searches log v.subject.directory rules resolver.config.mining
        (requestsOf v.subject.directory calls ++ asked) (firstLimit resolver.config.mining) none
        calls' result' →
      Searched v asked
        (requestsOf v.subject.directory calls' ++ requestsOf v.subject.directory calls)

/-- What is asked of the log in some turns, one after the other. -/
inductive Asked : List Visit → (before after : List PageRequest) → Prop
  | nil (asked : List PageRequest) : Asked [] asked asked
  | cons {v : Visit} {visits : List Visit} {asked new after : List PageRequest} :
    resolver.Searched rules log v asked new → Asked visits (new ++ asked) after →
      Asked (v :: visits) asked after

variable {resolver rules log} in
/-- What is asked in more turns comes after what is asked in the turns before them. -/
theorem Asked.append {visits later : List Visit} {before between after : List PageRequest}
    (h : resolver.Asked rules log visits before between)
    (hlater : resolver.Asked rules log later between after) :
    resolver.Asked rules log (visits ++ later) before after := by
  induction h with
  | nil => exact hlater
  | cons hfirst _ ih => exact .cons hfirst (ih hlater)

/-- The turns of some modules in a phase, one after the other. -/
def visits (phase : Phase) : (first : Bool) → List Module → List Visit
  | _, [] => []
  | first, m :: rest => ⟨phase, m, first⟩ :: visits phase false rest

/-- The turns of a phase: those of all modules, or that of the first one, whose version is given to
    all. -/
def visitsOf (reactor : List Module) (phase : Phase) : List Visit :=
  if resolver.config.autoVersionSubmodules then (visits phase true reactor).take 1
  else visits phase true reactor

/-- The turns that are reached from a session on: one that fails is the last one. -/
def reached : List Visit → Session → List Visit
  | [], _ => []
  | v :: rest, s => v :: match (resolver.visit v).run s with
      | (.ok (), t) => reached rest t
      | (.error _, _) => []

/-- The turns that a run reaches: a phase that fails is the last one. -/
def reachedVisits (reactor : List Module) : List Phase → Session → List Visit
  | [], _ => []
  | phase :: phases, s => resolver.reached (resolver.visitsOf reactor phase) s ++
      match (resolver.resolve phase reactor).run s with
      | (.ok (), t) => reachedVisits reactor phases t
      | (.error _, _) => []

/-! ### The turns that are reached -/

section Reached

variable {resolver} {phase : Phase} {s t : Session}

variable (resolver) in
theorem reached_prefix (due : List Visit) (s : Session) : resolver.reached due s <+: due := by
  induction due generalizing s with
  | nil => exact List.prefix_rfl
  | cons v rest ih =>
    rw [reached, List.prefix_cons_inj]
    split
    · exact ih _
    · exact List.nil_prefix

/-- In a phase that succeeds, every turn is reached. -/
theorem reached_of_resolveEach {first : Bool} {modules : List Module}
    (h : (resolver.resolveEach phase first modules).run s = (.ok (), t)) :
    resolver.reached (visits phase first modules) s = visits phase first modules := by
  induction modules generalizing first s with
  | nil => rfl
  | cons m rest ih =>
    rw [resolveEach_cons] at h
    obtain ⟨⟨⟩, s', hvisit, hrest⟩ := Failure.run_bind_eq_ok_iff.1 h
    rw [visits, reached, hvisit]
    exact congrArg _ (ih hrest)

theorem reached_of_resolve {reactor : List Module}
    (h : (resolver.resolve phase reactor).run s = (.ok (), t)) :
    resolver.reached (resolver.visitsOf reactor phase) s = resolver.visitsOf reactor phase := by
  rw [visitsOf]
  split
  · -- The only turn is reached in any case.
    cases reactor with
    | nil => rfl
    | cons leader rest =>
      rw [visits, List.take_succ_cons, List.take_zero, reached]
      split <;> rfl
  · next hauto =>
    rw [resolve_of_not_auto hauto] at h
    exact reached_of_resolveEach h

variable (resolver) in
theorem reachedVisits_prefix (reactor : List Module) (phases : List Phase) (s : Session) :
    resolver.reachedVisits reactor phases s <+: phases.flatMap (resolver.visitsOf reactor) := by
  induction phases generalizing s with
  | nil => exact List.prefix_rfl
  | cons phase phases ih =>
    rw [reachedVisits, List.flatMap_cons]
    rcases hrun : (resolver.resolve phase reactor).run s with ⟨_ | ⟨⟩, t⟩
    · rw [List.append_nil]
      exact (resolver.reached_prefix _ s).trans (List.prefix_append _ _)
    · rw [reached_of_resolve hrun]
      exact (List.prefix_append_right_inj _).2 (ih t)

theorem reachedVisits_of_executePhases {reactor : List Module} {phases : List Phase}
    (h : ((resolver.executePhases reactor phases).run s).1 = .ok ()) :
    resolver.reachedVisits reactor phases s = phases.flatMap (resolver.visitsOf reactor) := by
  induction phases generalizing s with
  | nil => rfl
  | cons phase phases ih =>
    rw [executePhases, Failure.run_bind] at h
    rw [reachedVisits, List.flatMap_cons]
    rcases hrun : (resolver.resolve phase reactor).run s with ⟨_ | ⟨⟩, t⟩ <;> rw [hrun] at h
    · cases h
    · rw [reached_of_resolve hrun]
      exact congrArg _ (ih h)

end Reached

section Announced

variable {resolver : Resolver} {rules : Rules} {log : ChangeLog} {config : RulesConfig}
  (hget : resolver.policies.get resolver.config.policy = .ok .conventional)
  (hconfig : RulesConfig.ofTable? resolver.config.policyConfig? = .ok config)
  (hrules : Rules.ofConfig config = .ok rules) (hlog : resolver.log? = some log)
include hget hconfig hrules hlog

/-- An attempt to release a module makes one search of its directory. -/
theorem askPolicy_searches (m : Module) (base : String) (s : Session) :
    ∃ calls result,
      Searches log m.directory rules resolver.config.mining s.journal.requests
        (firstLimit resolver.config.mining) none calls result ∧
      ((resolver.askPolicy .release m base).run s).2.journal.requests =
        requestsOf m.directory calls ++ s.journal.requests ∧
      ((resolver.askPolicy .release m base).run s).1 = attempt rules base result := by
  obtain ⟨calls, result, hsearches, hrequests, hresult⟩ :=
    Policy.Conventional.release_searches (resolver.request m base) hconfig hrules hlog s.journal
  refine ⟨calls, result, hsearches, ?_, (askPolicy_outcome hget base s).trans hresult⟩
  rw [askPolicy_of_known hget, Offline.requests_bind, Resolve.run_inquire]
  · exact hrequests
  · exact fun suggestion => (Offline.report _ _).bind fun _ => .pure _

/-- The proposal of a release makes one search, or two. -/
theorem suggest_searched {v : Visit} (hphase : v.phase = .release)
    (hfree : resolver.fixedVersion? v.phase v.subject v.first = none) (s : Session) :
    ∃ new, ((resolver.suggest v.phase v.subject v.first).run s).2.journal.requests =
        new ++ s.journal.requests ∧
      resolver.Searched rules log v s.journal.requests new := by
  obtain ⟨phase, m, first⟩ := v
  obtain rfl : phase = .release := hphase
  have hbase : resolver.baseVersion .release m first s.registry = m.version := rfl
  obtain ⟨calls, result, hsearches, hrequests, hresult⟩ :=
    askPolicy_searches hget hconfig hrules hlog m m.version s
  -- The first attempt settles it, unless it has failed because of the format of a version.
  obtain hfinal | ⟨e, t, hrun, hformat⟩ := resolver.final_or_versionFormat .release m m.version s
  · have honce : resolver.config.interactive = true → ∀ e,
        attempt rules m.version result = .error (.error e) → e.isVersionFormat = false :=
      fun _ e hattempt => hfinal e (hresult.trans hattempt)
    rw [run_suggest_of_final hfinal, hbase, hrequests]
    exact ⟨_, rfl, .once rfl hfree hsearches honce⟩
  · rw [hrun] at hrequests hresult
    have hattempt : attempt rules m.version result = .error (.error e) := hresult.symm
    cases hinteractive : resolver.config.interactive with
    | false =>
      obtain ⟨text, hsuggest⟩ := run_suggest_of_versionFormat_batch hrun hformat hinteractive
      rw [hsuggest, hrequests]
      refine ⟨_, rfl, .once rfl hfree hsearches fun h => ?_⟩
      rw [hinteractive] at h
      cases h
    | true =>
      obtain ⟨messages, hsuggest⟩ := run_suggest_of_versionFormat hrun hformat hinteractive
      -- The second attempt is made with another version, but searches the same directory.
      obtain ⟨calls', result', hsearches', hrequests', -⟩ :=
        askPolicy_searches hget hconfig hrules hlog m fallbackVersion
          { t with journal := ⟨messages, t.journal.requests⟩ }
      dsimp only at hrequests hsearches' hrequests'
      rw [hsuggest, hrequests', hrequests, ← List.append_assoc]
      rw [hrequests] at hsearches'
      exact ⟨_, rfl, .twice rfl hfree hsearches hinteractive hattempt hformat hsearches'⟩

/-- In a turn, the log is asked for the proposal of a release only. -/
theorem resolveModule_searched (v : Visit) (s : Session) :
    ∃ new, ((resolver.resolveModule v.phase v.subject v.first).run s).2.journal.requests =
        new ++ s.journal.requests ∧
      resolver.Searched rules log v s.journal.requests new := by
  by_cases hphase : v.phase = .release
  · cases hfree : resolver.fixedVersion? v.phase v.subject v.first with
    | some version =>
      have hfixed : (resolver.fixedVersion? v.phase v.subject v.first).isSome = true := by
        rw [hfree, Option.isSome_some]
      exact ⟨[], resolveModule_offline resolver v.subject v.first (.inr (.inl hfixed)) s,
        .spared (.inr hfixed)⟩
    | none =>
      have hchanges : ¬resolver.keepsCurrent v.phase v.subject.version = true := by
        rw [hphase]
        exact Bool.false_ne_true
      rw [resolveModule, Resolve.run_mapError, requests_nextVersion resolver _ _ hchanges hfree]
      exact suggest_searched hget hconfig hrules hlog hphase hfree s
  · have hoffline : resolver.OfflineIn v.phase := by
      intro policy hpolicy _ _ j
      obtain rfl : Policy.conventional = policy := Except.ok.inj (hget.symm.trans hpolicy)
      have hexpects : v.phase.expectsSnapshot = true := by
        simpa [Phase.expectsSnapshot] using hphase
      exact (Policy.blind_conventional hexpects).offline _ j
    have hsuggest := suggest_offline hoffline v.subject v.first
    exact ⟨[], resolveModule_offline resolver v.subject v.first (.inr (.inr hsuggest)) s,
      .spared (.inl hphase)⟩

theorem resolveEach_asked (phase : Phase) (first : Bool) (modules : List Module) (s : Session) :
    resolver.Asked rules log (resolver.reached (visits phase first modules) s) s.journal.requests
      ((resolver.resolveEach phase first modules).run s).2.journal.requests := by
  induction modules generalizing first s with
  | nil => exact .nil _
  | cons m rest ih =>
    obtain ⟨new, hnew, hsearched⟩ :=
      resolveModule_searched hget hconfig hrules hlog ⟨phase, m, first⟩ s
    -- What is recorded behind the decision asks nothing, so the turn asks what the decision does.
    have hvisit : ((resolver.visit ⟨phase, m, first⟩).run s).2.journal.requests =
        new ++ s.journal.requests :=
      (Offline.requests_bind (fun _ => .record _ _ _) s).trans hnew
    rw [resolveEach_cons, Failure.run_bind, visits, reached]
    rcases hrun : (resolver.visit ⟨phase, m, first⟩).run s with ⟨_ | ⟨⟩, t⟩ <;> rw [hrun] at hvisit
    · rw [hvisit]
      exact .cons hsearched (.nil _)
    · refine .cons hsearched ?_
      rw [← hvisit]
      exact ih false t

theorem resolve_asked (reactor : List Module) (phase : Phase) (s : Session) :
    resolver.Asked rules log (resolver.reached (resolver.visitsOf reactor phase) s)
      s.journal.requests ((resolver.resolve phase reactor).run s).2.journal.requests := by
  by_cases hauto : resolver.config.autoVersionSubmodules = true
  · rw [visitsOf, if_pos hauto]
    cases reactor with
    | nil => exact .nil _
    | cons leader rest =>
      obtain ⟨new, hnew, hsearched⟩ :=
        resolveModule_searched hget hconfig hrules hlog ⟨phase, leader, true⟩ s
      have hreached : resolver.reached [⟨phase, leader, true⟩] s = [⟨phase, leader, true⟩] := by
        rw [reached]
        split <;> rfl
      rw [visits, List.take_succ_cons, List.take_zero, hreached, resolve, if_pos hauto,
        Offline.requests_bind, hnew]
      · exact .cons hsearched (.nil _)
      · -- The other modules have no turns; their versions follow from that of the first one.
        intro version
        refine (Offline.report _ _).bind fun _ => (Offline.record _ _ _).bind fun _ => ?_
        exact propagate_composed Offline.composes version rest
  · rw [visitsOf, if_neg hauto, resolve_of_not_auto hauto]
    exact resolveEach_asked hget hconfig hrules hlog phase true reactor s

/-- A run asks what the turns ask that it reaches. -/
theorem executePhases_asked (reactor : List Module) (phases : List Phase) (s : Session) :
    resolver.Asked rules log (resolver.reachedVisits reactor phases s) s.journal.requests
      ((resolver.executePhases reactor phases).run s).2.journal.requests := by
  induction phases generalizing s with
  | nil => exact .nil _
  | cons phase phases ih =>
    have hphase := resolve_asked hget hconfig hrules hlog reactor phase s
    rw [executePhases, Failure.run_bind, reachedVisits]
    rcases hrun : (resolver.resolve phase reactor).run s with ⟨_ | ⟨⟩, t⟩ <;> rw [hrun] at hphase
    · rw [List.append_nil]
      exact hphase
    · exact hphase.append (ih t)

end Announced

/-! ### Runs -/

/-- The history is read only where it matters. With the built-in policies, a run comes to the same with
    any two logs, or with none, and asks nothing of them, if it has no release or not the policy that
    proposes what commits announce. With that policy and rules that can be compiled, a run asks the log
    what the turns ask that it reaches, in their order; these are the first turns of all that are due,
    and all of them if the run succeeds. Without a log, nothing is asked in any case. -/
theorem history_read_for_releases (config : Config) (reactor : List Module) (phases : List Phase)
    (s : Session) :
    let resolver (log? : Option ChangeLog) : Resolver := ⟨config, .builtin, log?⟩
    let run (log? : Option ChangeLog) := ((resolver log?).executePhases reactor phases).run s
    (config.policy = Policies.defaultId ∨ .release ∉ phases → ∀ log? log?',
      (run log?').1 = (run log?).1 ∧ (run log?').2.registry = (run log?).2.registry ∧
        (run log?).2.journal.requests = s.journal.requests) ∧
    (run none).2.journal.requests = s.journal.requests ∧
    (config.policy ∈ Policies.conventionalIds → ∀ rulesConfig rules log,
      RulesConfig.ofTable? config.policyConfig? = .ok rulesConfig →
      Rules.ofConfig rulesConfig = .ok rules →
        let reached := (resolver (some log)).reachedVisits reactor phases s
        let due := phases.flatMap ((resolver (some log)).visitsOf reactor)
        (resolver (some log)).Asked rules log reached s.journal.requests
            (run (some log)).2.journal.requests ∧
          reached <+: due ∧ ((run (some log)).1 = .ok () → reached = due)) := by
  intro resolver run
  refine ⟨fun hunread log? log?' => ?_, ?_, ?_⟩
  · have hblind : ∀ phase ∈ phases, BlindIn config .builtin phase := by
      intro phase hphase policy hpolicy
      refine Policies.blind_of_builtin_get hpolicy (hunread.imp_right fun hrelease => ?_)
      rintro rfl
      exact hrelease hphase
    obtain ⟨hresult, hagree⟩ := executePhases_agrees log? log?' hblind reactor s s rfl
    refine ⟨hresult, ?_, ?_⟩
    · rw [hagree]
    · exact executePhases_offline (fun phase hphase => (hblind phase hphase).offlineIn log?)
        reactor s
  · exact executePhases_offline (fun phase _ => Policies.offlineIn_of_no_log config phase) reactor s
  · intro hpolicy rulesConfig rules log hconfig hrules
    have hget : Policies.builtin.get config.policy = .ok .conventional := by
      obtain ⟨hdefault, -⟩ | ⟨-, hget⟩ := Policies.builtin_get (List.mem_cons_of_mem _ hpolicy)
      · rw [hdefault] at hpolicy
        exact absurd hpolicy (by decide)
      · exact hget
    refine ⟨?_, reachedVisits_prefix _ reactor phases s, reachedVisits_of_executePhases⟩
    exact executePhases_asked hget hconfig hrules rfl reactor phases s

/-- A module whose version cannot be read is searched for twice, and one whose release is fixed is not
    searched for. Without a release, a log that always fails makes no difference. -/
theorem history_read_twice_for_unreadable :
    let log : ChangeLog := .ofHistory [⟨"fix: a", []⟩]
    let config : Config := { policy := "ccsemver", releaseVersions := .ofList [("g:lib", "2.0")] }
    let resolver (log : ChangeLog) : Resolver := ⟨config, .builtin, some log⟩
    let app : Module := ⟨⟨"g", "app"⟩, "app", "unknown", some "app"⟩
    let lib : Module := .ofId ⟨"g", "lib"⟩ "1.0-SNAPSHOT"
    let session : Session := .start (.scripted ["", ""])
    let run (log : ChangeLog) (phase : Phase) :=
      ((resolver log).executePhases [app, lib] [phase]).run session
    let requests : List PageRequest := [⟨"app", 10⟩, ⟨"app", 10⟩]
    config.policy ∈ Policies.conventionalIds ∧
      RulesConfig.ofTable? config.policyConfig? = .ok .none ∧ Rules.ofConfig .none = .ok .builtin ∧
      (run log .release).1 = .ok () ∧ (run log .release).2.journal.requests = requests ∧
      (resolver log).Asked .builtin log [⟨.release, app, true⟩, ⟨.release, lib, false⟩] [] requests ∧
      (run (.failing "offline") .development).1 = (run log .development).1 := by
  intro log config resolver app lib session run requests
  have hpolicy : config.policy ∈ Policies.conventionalIds := by decide
  obtain ⟨-, -, hasks⟩ := history_read_for_releases config [app, lib] [.release] session
  obtain ⟨hasked, -, hall⟩ := hasks hpolicy _ _ log rfl Rules.ofConfig_none
  have hrun : (run log .release).1 = .ok () ∧ (run log .release).2.journal.requests = requests := by
    decide +kernel
  rw [hall hrun.1] at hasked
  obtain ⟨hsame, -⟩ := history_read_for_releases config [app, lib] [.development] session
  obtain ⟨hresult, -⟩ := hsame (.inr (by decide)) (some log) (some (.failing "offline"))
  exact ⟨hpolicy, rfl, Rules.ofConfig_none, hrun.1, hrun.2, hrun.2 ▸ hasked, hresult⟩

end Resolver

end Versioning
