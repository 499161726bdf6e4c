import Versioning.Proofs.History.Calls
import Versioning.Proofs.Policy.Conventional
import Versioning.Proofs.Policy.Development

/-!
# Where a proposal starts

A built-in policy makes a proposal out of one text that it starts from. If that is no version, this
is the error; if it is one, there is a proposal, unless a number is the last word
(`Policy.Proposes`). The text is the version that the policy was asked about. Only the release that
commits announce may start from a tag instead, which the rules have taken from the history and
which nobody has read as a version before (`Policy.Conventional.release_of_clear`).
-/

namespace Versioning

/-- The log answers every call, and on no page the latest release has several versions. -/
def ChangeLog.Clear (log : ChangeLog) (rules : Rules) : Prop :=
  ∀ asked request, ∃ page, log.answer asked request = .ok page ∧
    (CommitHistory.anchorVersions rules page).length < 2

/-- The log of a history is clear if no change in it has several versions. -/
theorem ChangeLog.clear_ofHistory {rules : Rules} {history : List ChangeSet}
    (h : ∀ change ∈ history, (CommitHistory.versionsOf rules change).length < 2) :
    (ofHistory history).Clear rules := by
  intro asked request
  refine ⟨history.take request.limit, rfl, ?_⟩
  rw [CommitHistory.anchorVersions]
  cases hanchor : CommitHistory.anchor? rules (history.take request.limit) with
  | none => exact Nat.zero_lt_two
  | some anchor => exact h anchor (List.mem_of_mem_take (List.mem_of_find?_eq_some hanchor))

/-- On some page of the log of a directory the latest release has a tag with this version. -/
def ChangeLog.Shows (log : ChangeLog) (rules : Rules) (directory tag : String) : Prop :=
  ∃ asked limit page, log.answer asked ⟨directory, limit⟩ = .ok page ∧
    CommitHistory.anchorVersions rules page = [tag]

namespace CommitHistory

variable {log : ChangeLog} {directory : String} {rules : Rules} {limits : MiningLimits}

/-- What is found in a clear log is on one of its pages. -/
theorem Searches.found_of_clear {asked : List PageRequest} {limit : Nat} {previous? : Option Nat}
    {calls : List Call} {result : Except Failure CommitHistory} (hclear : log.Clear rules)
    (h : Searches log directory rules limits asked limit previous? calls result) :
    result = .error .overflow ∨ ∃ found, result = .ok found ∧
      ∀ tag, found.tag? = some tag → log.Shows rules directory tag := by
  induction h with
  | @refused asked limit _ _ hanswer =>
    obtain ⟨page, hpage, -⟩ := hclear asked ⟨directory, limit⟩
    cases hanswer.symm.trans hpage
  | @judged asked limit _ page hanswer =>
    obtain ⟨page', hpage, hfew⟩ := hclear asked ⟨directory, limit⟩
    cases hanswer.symm.trans hpage
    rw [outcome_eq_anchor]
    rcases hv : anchorVersions rules page with _ | ⟨v, _ | ⟨w, vs⟩⟩
    · exact .inr ⟨_, rfl, nofun⟩
    · refine .inr ⟨_, rfl, fun tag htag => ?_⟩
      cases htag
      exact ⟨asked, limit, page, hanswer, hv⟩
    · rw [hv, List.length_cons, List.length_cons] at hfew
      omega
  | exceeded => exact .inl rfl
  | next _ _ _ _ ih => exact ih

/-- A search of a clear log finds something, unless a limit exceeds the largest word. -/
theorem mine_of_clear (hclear : log.Clear rules) (j : Journal) :
    ((mine log directory rules limits).run j).1 = .error .overflow ∨
      ∃ found, ((mine log directory rules limits).run j).1 = .ok found ∧
        ∀ tag, found.tag? = some tag → log.Shows rules directory tag := by
  obtain ⟨calls, hsearches, -⟩ := mineFrom_searches (Nat.succ_pos wordLimit)
    (by omega : wordLimit < wordLimit + 1 + firstLimit limits) none j
  exact hsearches.found_of_clear hclear

end CommitHistory

namespace Policy

/-- What can come of a text that a proposal starts from. -/
inductive Proposes (start : String) : Except Failure String → Prop
  | unreadable : Version.parse? start = none →
    Proposes start (.error (.error (.versionFormat (.unreadable start))))
  | last {v : Version} {level : BumpLevel} : Version.parse? start = some v → v.IsLast level →
    Proposes start (.error .overflow)
  | text {text : String} : Proposes start (.ok text)

/-- A step from a version is a proposal, however it is written. -/
theorem Proposes.of_bump? {start : String} {v : Version} (hv : Version.parse? start = some v)
    (level : BumpLevel) (write : Version → String) :
    Proposes start ((v.bump? level).elim (.error .overflow) fun next => .ok (write next)) := by
  cases hnext : v.bump? level with
  | none => exact .last hv (Version.bump?_eq_none_iff.1 hnext)
  | some next => exact .text

theorem proposes_goOn (write : Version → String) (start : String) :
    Proposes start (goOn write start) := by
  rw [goOn]
  split
  · next hnone => exact .unreadable hnone
  · next v hv => exact .of_bump? hv .minor write

theorem Conventional.proposes_follow (level : BumpLevel) (start : String) :
    Proposes start (follow level start) := by
  rw [follow]
  split
  · next hnone => exact .unreadable hnone
  · next v hv => exact .of_bump? hv level Version.strictText

variable (request : PolicyRequest)

/-- The policy that drops the marker releases whatever it can read. -/
theorem run_release_markerOnly (j : Journal) :
    ((markerOnly.release request).run j).1 = match Version.parse? request.version with
      | none => .error (.error (.versionFormat (.unreadable request.version)))
      | some v => .ok v.toRelease.text := by
  simp only [markerOnly, Failure.run_bind, readVersion]
  cases Version.parse? request.version <;> rfl

theorem proposes_release_markerOnly (j : Journal) :
    Proposes request.version ((markerOnly.release request).run j).1 := by
  rw [run_release_markerOnly]
  split
  · next hnone => exact .unreadable hnone
  · exact .text

theorem proposes_development_markerOnly (j : Journal) :
    Proposes request.version ((markerOnly.development request).run j).1 := by
  rw [run_development_markerOnly]
  exact proposes_goOn _ _

theorem proposes_development_conventional (j : Journal) :
    Proposes request.version ((conventional.development request).run j).1 := by
  rw [run_development_conventional]
  exact proposes_goOn _ _

open CommitHistory in
/-- The release that commits announce starts from the version that the policy is asked about, or
    from a tag that a clear log shows, unless the limits of the search exceed the largest word. -/
theorem Conventional.release_of_clear {config : RulesConfig} {rules : Rules}
    (hconfig : RulesConfig.ofTable? request.settings? = .ok config)
    (hrules : Rules.ofConfig config = .ok rules)
    (hclear : ∀ log, request.log? = some log → log.Clear rules) (j : Journal) :
    (∃ log, request.log? = some log ∧
      ((mine log request.directory rules request.limits).run j).1 = .error .overflow ∧
      ((conventional.release request).run j).1 = .error .overflow) ∨
    ∃ start, (start = request.version ∨
        ∃ log, request.log? = some log ∧ log.Shows rules request.directory start) ∧
      Proposes start ((conventional.release request).run j).1 := by
  cases hlog : request.log? with
  | none =>
    refine .inr ⟨request.version, .inl rfl, ?_⟩
    simp only [conventional, Failure.run_bind, hconfig, hrules, Consult.run_ofExcept_ok,
      Conventional.history, hlog, Consult.run_report, Failure.run_pure, run_suggestRelease]
    exact proposes_follow _ _
  | some log =>
    simp only [conventional, Failure.run_bind, hconfig, hrules, Consult.run_ofExcept_ok,
      Conventional.history, hlog, Consult.run_mapError]
    have hmine : ((mine log request.directory rules request.limits).run j).1 = _ ∨ _ :=
      mine_of_clear (hclear log hlog) j
    rcases hrun : (mine log request.directory rules request.limits).run j with ⟨result, j'⟩
    rw [hrun] at hmine
    rcases hmine with hoverflow | ⟨found, hfound, htag⟩
    · obtain rfl : result = .error .overflow := hoverflow
      exact .inl ⟨log, rfl, congrArg Prod.fst hrun, rfl⟩
    · obtain rfl : result = .ok found := hfound
      dsimp only
      rw [run_suggestRelease]
      refine .inr ⟨found.tag?.getD request.version, ?_, proposes_follow _ _⟩
      cases hfoundTag : found.tag? with
      | none => exact .inl rfl
      | some tag => exact .inr ⟨log, rfl, htag tag hfoundTag⟩

end Policy

/-- The ids of the built-in policies lead to the two policies. -/
theorem Policies.builtin_get {id : String} (hid : id ∈ defaultId :: conventionalIds) :
    id = defaultId ∧ builtin.get id = .ok .markerOnly ∨
      id ∈ conventionalIds ∧ builtin.get id = .ok .conventional := by
  rcases List.mem_cons.1 hid with rfl | hconventional
  · exact .inl ⟨rfl, rfl⟩
  · refine .inr ⟨hconventional, ?_⟩
    simp only [conventionalIds, List.mem_cons, List.not_mem_nil, or_false] at hconventional
    rcases hconventional with rfl | rfl <;> rfl

end Versioning
