import Versioning.Policy
import Versioning.Proofs.History.Paging
import Versioning.Proofs.Rules.Level
import Versioning.Proofs.Version.Reading
import Versioning.Proofs.Version.Step

/-!
# The release that commits announce

The policy of conventional commits reads the history in pages, looks for the latest release,
takes the level of the messages since then and makes a step from the version that it found. A
proposal has to be right in all of these at once, since a wrong anchor or a wrong level still
gives a version that looks like one.

What comes out depends on the *window* only, the changes that the cap allows: its anchor, the
first change in it that names a version, decides where the release starts (`base`) and which
messages count (`level`). The proposal is the text that follows from these two
(`run_release`). `release_announced` says what that text is, and when there is none.
-/

namespace Versioning.Policy.Conventional

open CommitHistory

variable {request : PolicyRequest} {config : RulesConfig} {rules : Rules} {log : ChangeLog}
  {history : List ChangeSet}

/-- The text that a release starts from: the version of the anchor, or else the current one. -/
def base (rules : Rules) (page : List ChangeSet) (current : String) : String :=
  (anchorVersions rules page).headD current

/-- The level of a release: that of the messages since the anchor, and at least a patch if there
    is one. -/
def level (rules : Rules) (page : List ChangeSet) : BumpLevel :=
  rules.announced (anchor? rules page).isSome (sinceAnchor rules page)

/-- What comes after a text by a step of a level. -/
def follow (level : BumpLevel) (base : String) : Except Failure String :=
  match Version.parse? base with
  | none => .error (.error (.versionFormat (.unreadable base)))
  | some v => (v.bump? level).elim (.error .overflow) fun next => .ok next.strictText

/-! ### One step -/

section Follow

variable {level : BumpLevel} {base : String} {v : Version}

/-- The only error is that the text is no version. -/
theorem follow_eq_error_iff {e : ReleaseError} :
    follow level base = .error (.error e) ↔
      Version.parse? base = none ∧ e = .versionFormat (.unreadable base) := by
  rw [follow]
  cases Version.parse? base with
  | none => simp [eq_comm]
  | some v => cases hv : v.bump? level <;> simp [hv]

/-- A number that is the last word is not raised. -/
theorem follow_of_isLast (hbase : Version.parse? base = some v) (hlast : v.IsLast level) :
    follow level base = .error .overflow := by
  rw [follow, hbase]
  dsimp only
  rw [Version.bump?_eq_none_iff.2 hlast, Option.elim_none]

/-- Otherwise the raised numbers are written, and are read back. -/
theorem exists_follow (hbase : Version.parse? base = some v) (hlast : ¬v.IsLast level) :
    ∃ text next, follow level base = .ok text ∧
      text = ".".intercalate ((v.raise level).map toString) ∧
      Version.parse? text = some next ∧ next.triple = v.raise level := by
  obtain ⟨next, hnext⟩ :=
    Option.ne_none_iff_exists'.1 fun hnone => hlast (Version.bump?_eq_none_iff.1 hnone)
  have hraised : next.triple = v.raise level := Version.triple_of_bump? hnext
  refine ⟨next.strictText, _, ?_, ?_, Version.parse?_strictText next, hraised⟩
  · rw [follow, hbase]
    dsimp only
    rw [hnext, Option.elim_some]
  · rw [Version.strictText_eq, hraised]

end Follow

/-! ### The proposal -/

/-- A proposal starts from the version that was found, or from the current one. -/
theorem run_suggestRelease (found : CommitHistory) (current : String) (j : Journal) :
    ((suggestRelease rules found current).run j).1 =
      follow (found.bumpLevel rules) (found.tag?.getD current) := by
  simp only [suggestRelease, Failure.run_bind, Consult.run_report, readVersion, follow]
  cases Version.parse? (found.tag?.getD current) with
  | none => simp
  | some v => cases h : v.bump? (found.bumpLevel rules) <;> simp [h]

/-- The proposal is decided by the anchor of the page that the history is the outcome of. -/
theorem run_release_of_outcome (hconfig : RulesConfig.ofTable? request.settings? = .ok config)
    (hrules : Rules.ofConfig config = .ok rules) (hlog : request.log? = some log)
    {page : List ChangeSet} {j : Journal}
    (hmine : ((mine log request.directory rules request.limits).run j).1 = outcome rules page) :
    ((conventional.release request).run j).1 =
      if 2 ≤ (anchorVersions rules page).length then
        .error (.error (.policy "Unable to obtain the information from the SCM history"
          (.ambiguousTag (anchorVersions rules page))))
      else follow (level rules page) (base rules page request.version) := by
  rw [outcome_eq_anchor] at hmine
  simp only [conventional, Failure.run_bind, hconfig, hrules, Consult.run_ofExcept_ok,
    Conventional.history, hlog, Consult.run_mapError]
  generalize (mine log request.directory rules request.limits).run j = mined at hmine ⊢
  obtain ⟨found, j'⟩ := mined
  obtain rfl : found = _ := hmine
  -- Without an anchor, with one version, and with several of them.
  rcases hv : anchorVersions rules page with _ | ⟨v, _ | ⟨w, vs⟩⟩
  · simp only [run_suggestRelease, bumpLevel, Rules.maxBump_eq_announced]
    simp [level, base, isSome_anchor?, hv]
  · simp only [run_suggestRelease, bumpLevel, Rules.maxBump_eq_announced]
    simp [level, base, isSome_anchor?, hv]
  · simp

/-- The proposal for a history is decided by the anchor of the window. -/
theorem run_release (hconfig : RulesConfig.ofTable? request.settings? = .ok config)
    (hrules : Rules.ofConfig config = .ok rules) (hlog : request.log? = some log)
    (hserves : log.Serves request.directory history)
    (hroom : history.length + step request.limits < wordLimit) (j : Journal) :
    ((conventional.release request).run j).1 =
      let page := history.take (window request.limits history.length)
      if 2 ≤ (anchorVersions rules page).length then
        .error (.error (.policy "Unable to obtain the information from the SCM history"
          (.ambiguousTag (anchorVersions rules page))))
      else follow (level rules page) (base rules page request.version) :=
  run_release_of_outcome hconfig hrules hlog (mine_eq_outcome hserves hroom j)

/-- After a release, the level is at least a patch. -/
theorem level_ne_none {page : List ChangeSet} (hanchor : (anchor? rules page).isSome) :
    level rules page ≠ .none := by
  rw [level, hanchor]
  exact rules.announced_ne_none

/-- The proposal is refused as ambiguous exactly if the anchor names several versions. Otherwise
    it starts from the version of the anchor, or from the current one: a text that is no version
    is a format error, a number that is the last word is not raised, and else the numbers raised
    by the announced level are written in decimal. They are read back, and after a release they
    are larger than before. -/
theorem release_announced (hconfig : RulesConfig.ofTable? request.settings? = .ok config)
    (hrules : Rules.ofConfig config = .ok rules) (hlog : request.log? = some log)
    (hserves : log.Serves request.directory history)
    (hroom : history.length + step request.limits < wordLimit) (j : Journal) :
    let page := history.take (window request.limits history.length)
    let start := base rules page request.version
    let rise := level rules page
    let result := ((conventional.release request).run j).1
    ((∃ e, result = .error (.error e) ∧ e.kind = .policy ∧ e.rootCause.kind = .ambiguousTag) ↔
      2 ≤ (anchorVersions rules page).length) ∧
    ((anchorVersions rules page).length < 2 →
      ((∃ e, result = .error (.error e) ∧ e.kind = .versionFormat) ↔
        Version.parse? start = none) ∧
      ∀ v, Version.parse? start = some v →
        (v.IsLast rise → result = .error .overflow) ∧
        (¬v.IsLast rise → ∃ text next, result = .ok text ∧
          text = ".".intercalate ((v.raise rise).map toString) ∧
          Version.parse? text = some next ∧ next.triple = v.raise rise ∧
          ((anchor? rules page).isSome → v.triple < next.triple))) := by
  intro page start rise result
  have hresult : result = _ := run_release hconfig hrules hlog hserves hroom j
  by_cases hmany : 2 ≤ (anchorVersions rules page).length
  · rw [if_pos hmany] at hresult
    refine ⟨iff_of_true ⟨_, hresult, rfl, rfl⟩ hmany, fun hfew => ?_⟩
    exact absurd hmany (Nat.not_le.2 hfew)
  · rw [if_neg hmany] at hresult
    rw [hresult]
    refine ⟨iff_of_false ?_ hmany, fun _ => ⟨?_, fun v hv => ⟨follow_of_isLast hv, ?_⟩⟩⟩
    · -- With one version or none, an error is one of format and not of the policy.
      rintro ⟨e, he, hkind, -⟩
      rw [(follow_eq_error_iff.1 he).2] at hkind
      cases hkind
    · constructor
      · rintro ⟨e, he, -⟩
        exact (follow_eq_error_iff.1 he).1
      · exact fun hnone => ⟨_, follow_eq_error_iff.2 ⟨hnone, rfl⟩, rfl⟩
    · intro hlast
      obtain ⟨text, next, hfollow, htext, hparse, hraised⟩ := exists_follow hv hlast
      refine ⟨text, next, hfollow, htext, hparse, hraised, fun hanchor => ?_⟩
      rw [hraised]
      exact Version.triple_lt_raise (level_ne_none hanchor) v

/-- A new feature since the release 2.3.4 announces 2.4.0, whatever the current version is. -/
theorem release_announced_after_feature :
    let history : List ChangeSet :=
      [⟨"feat(core): x", []⟩, ⟨"fix: y", ["nightly"]⟩, ⟨"release", ["2.3.4"]⟩]
    let request : PolicyRequest :=
      ⟨"1.1.1-SNAPSHOT", ".", some (.ofHistory history), none, .default⟩
    RulesConfig.ofTable? request.settings? = .ok .none ∧ Rules.ofConfig .none = .ok .builtin ∧
      (ChangeLog.ofHistory history).Serves "." history ∧
      history.length + step request.limits < wordLimit ∧
      ((conventional.release request).run .empty).1 = .ok "2.4.0" := by
  intro history request
  have hserves := ChangeLog.serves_ofHistory "." history
  have hroom : history.length + step request.limits < wordLimit := by decide
  obtain ⟨-, hreleased⟩ := @release_announced request _ _ _ history rfl Rules.ofConfig_none rfl
    hserves hroom .empty
  have hpage : history.take (window request.limits history.length) = history := rfl
  have hstart : Version.parse? (base .builtin history "1.1.1-SNAPSHOT") =
      some ⟨.three 2 3 4, none, false⟩ := by decide +kernel
  have hrise : level .builtin history = .minor := by decide +kernel
  have hlast : ¬Version.IsLast .minor ⟨.three 2 3 4, none, false⟩ := by
    rintro ⟨n, ⟨⟩, hn⟩
    exact absurd hn (by decide)
  rw [hpage, hrise] at hreleased
  obtain ⟨text, next, hresult, htext, -⟩ :=
    ((hreleased (by decide +kernel)).2 _ hstart).2 hlast
  refine ⟨rfl, Rules.ofConfig_none, hserves, hroom, hresult.trans ?_⟩
  rw [htext]
  rfl

end Versioning.Policy.Conventional
