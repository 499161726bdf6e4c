import Mathlib.Data.List.Lex
import Versioning.Proofs.Policy.Conventional
import Versioning.Proofs.Rules.Sources
import Versioning.Proofs.Version.Raising

/-!
# More rules

A configuration *extends* another one if it keeps its rules for messages, or makes them rules of a
larger change, and leaves the rule for tags as it is (`RulesConfig.Extends`). Then every message
announces at least as much as before (`Rules.classify_le_classify`), and so does a history.

Since the rule for tags is the same, both find the same release in a history. So they propose a step
from the same version, one of them perhaps a larger one, and that leads to no smaller version
(`Policy.Conventional.release_of_extends`). In particular the built-in rules are extended by every
configuration: none of them can be taken away.
-/

namespace Versioning

/-- The rules for messages are kept or become rules of a larger change, and the rule for tags stays
    the same. -/
structure RulesConfig.Extends (more config : RulesConfig) : Prop where
  versionTag? : more.versionTag? = config.versionTag?
  major : ∀ source ∈ config.majorRules, source ∈ more.majorRules
  minor : ∀ source ∈ config.minorRules, source ∈ more.minorRules ∨ source ∈ more.majorRules

namespace Rules

variable {config more : RulesConfig} {rules rules' : Rules}

/-- The level of a message is larger if what announced a change still announces it, or a larger one. -/
theorem classify_le_of_imp {message : String}
    (hmajor : rules.isMajorUpdate message = true → rules'.isMajorUpdate message = true)
    (hminor : rules.isMinorUpdate message = true →
      rules'.isMinorUpdate message = true ∨ rules'.isMajorUpdate message = true) :
    rules.classify message ≤ rules'.classify message := by
  rw [classify]
  split
  · next h =>
    rw [classify, if_pos (hmajor h)]
    exact BumpLevel.le_refl _
  · split
    · next h =>
      rw [classify]
      split
      · decide
      · next hnot =>
        rw [if_pos ((hminor h).resolve_right hnot)]
        exact BumpLevel.le_refl _
    · exact BumpLevel.none_le _

variable (hrules : ofConfig config = .ok rules) (hmore : ofConfig more = .ok rules')
  (hextends : more.Extends config)
include hrules hmore hextends

/-- Both name the same versions. -/
theorem tag_eq_of_extends : rules'.tag = rules.tag := by
  have hsource : more.tagSource = config.tagSource := by
    rw [RulesConfig.tagSource, RulesConfig.tagSource, hextends.versionTag?]
  have htag := (ofConfig_eq_ok_iff.1 hmore).1
  rw [hsource, (ofConfig_eq_ok_iff.1 hrules).1] at htag
  exact (Except.ok.inj htag).symm

/-- More rules announce no smaller change. -/
theorem classify_le_classify (message : String) :
    rules.classify message ≤ rules'.classify message := by
  apply classify_le_of_imp
  · rw [isMajorUpdate_iff hrules, isMajorUpdate_iff hmore]
    rintro ⟨source, hsource, hdescribes⟩
    refine ⟨source, ?_, hdescribes⟩
    exact List.mem_append.2 ((List.mem_append.1 hsource).imp_right (hextends.major source))
  · rw [isMinorUpdate_iff hrules, isMinorUpdate_iff hmore, isMajorUpdate_iff hmore]
    rintro ⟨source, hsource, hdescribes⟩
    obtain hbuiltin | hsource := List.mem_append.1 hsource
    · exact .inl ⟨source, List.mem_append_left _ hbuiltin, hdescribes⟩
    · obtain hsource | hsource := hextends.minor source hsource
      · exact .inl ⟨source, List.mem_append_right _ hsource, hdescribes⟩
      · exact .inr ⟨source, List.mem_append_right _ hsource, hdescribes⟩

theorem announced_le_announced (released : Bool) (messages : List String) :
    rules.announced released messages ≤ rules'.announced released messages := by
  obtain ⟨hpatch, hmessages⟩ :=
    rules'.announced_le_iff.1 (BumpLevel.le_refl (rules'.announced released messages))
  refine rules.announced_le_iff.2 ⟨hpatch, fun message hmessage => ?_⟩
  exact BumpLevel.le_trans (classify_le_classify hrules hmore hextends message)
    (hmessages message hmessage)

omit hmore hextends

/-- The rules of a configuration without its rules for messages. -/
theorem ofConfig_plain {plain : Rules} (hplain : ofConfig .none = .ok plain) :
    ofConfig ⟨config.versionTag?, [], []⟩ = .ok { plain with tag := rules.tag } := by
  obtain ⟨-, hmajor, hminor⟩ := ofConfig_eq_ok_iff.1 hplain
  exact ofConfig_eq_ok_iff.2 ⟨(ofConfig_eq_ok_iff.1 hrules).1, hmajor, hminor⟩

/-- No configuration takes a built-in rule away. -/
theorem builtin_classify_le (message : String) : builtin.classify message ≤ rules.classify message := by
  have hextends : config.Extends ⟨config.versionTag?, [], []⟩ := ⟨rfl, by simp, by simp⟩
  -- The rule for tags has no say in the level of a message.
  have hsame {plain : Rules} {tag : Pattern} :
      plain.classify message = { plain with tag }.classify message := rfl
  rw [hsame]
  exact classify_le_classify (ofConfig_plain hrules ofConfig_none) hrules hextends message

end Rules

/-! ### Proposals -/

namespace Version

/-- Of two steps from one version, the one of the larger level leads to no smaller version. -/
theorem triple_le_of_bump? {a b : BumpLevel} {v w x : Version} (hab : a ≤ b)
    (hw : v.bump? a = some w) (hx : v.bump? b = some x) : w.triple ≤ x.triple := by
  obtain hlt | rfl := BumpLevel.lt_or_eq_of_le hab
  · exact le_of_lt (triple_lt_of_bump? hlt hw hx)
  · obtain rfl : w = x := Option.some.inj (hw.symm.trans hx)
    exact le_refl _

end Version

namespace Policy.Conventional

open CommitHistory

variable {config more : RulesConfig} {rules rules' : Rules} {request : PolicyRequest}
  {log : ChangeLog} {history : List ChangeSet}

/-- A proposal is a step from the version that a text says. -/
theorem follow_eq_ok_iff {level : BumpLevel} {base text : String} :
    follow level base = .ok text ↔ ∃ v next, Version.parse? base = some v ∧
      v.bump? level = some next ∧ next.strictText = text := by
  rw [follow]
  cases Version.parse? base with
  | none => simp
  | some v => cases hv : v.bump? level <;> simp [hv]

/-- A larger level leads from a text to no smaller version. -/
theorem follow_le_follow {level level' : BumpLevel} (hlevel : level ≤ level') {base text text' : String}
    (h : follow level base = .ok text) (h' : follow level' base = .ok text') :
    ∃ v v', Version.parse? text = some v ∧ Version.parse? text' = some v' ∧
      v.triple ≤ v'.triple := by
  obtain ⟨start, next, hstart, hnext, rfl⟩ := follow_eq_ok_iff.1 h
  obtain ⟨start', next', hstart', hnext', rfl⟩ := follow_eq_ok_iff.1 h'
  obtain rfl : start = start' := Option.some.inj (hstart.symm.trans hstart')
  have hle : next.triple ≤ next'.triple := Version.triple_le_of_bump? hlevel hnext hnext'
  exact ⟨_, _, Version.parse?_strictText next, Version.parse?_strictText next', hle⟩

variable (request) in
/-- A proposal for a history is the step from its anchor, also where the search might overflow. -/
theorem follow_of_release (hconfig : RulesConfig.ofTable? request.settings? = .ok config)
    (hrules : Rules.ofConfig config = .ok rules) (hlog : request.log? = some log)
    (hserves : log.Serves request.directory history) {j : Journal} {text : String}
    (h : ((conventional.release request).run j).1 = .ok text) :
    let page := history.take (window request.limits history.length)
    follow (level rules page) (base rules page request.version) = .ok text := by
  obtain hmine | ⟨hoverflow, -⟩ := mine_eq_outcome_or_overflow hserves j
  · rw [run_release_of_outcome hconfig hrules hlog hmine] at h
    split at h
    · cases h
    · exact h
  · -- A search that has overflowed leads to no proposal.
    simp only [conventional, Failure.run_bind, hconfig, hrules, Consult.run_ofExcept_ok,
      Conventional.history, hlog, Consult.run_mapError] at h
    generalize (mine log request.directory rules request.limits).run j = mined at hoverflow h
    obtain ⟨found, j'⟩ := mined
    obtain rfl : found = _ := hoverflow
    cases h

/-- Rules that name the same versions find the same changes since a release. -/
theorem versionsOf_eq_of_tag_eq (htag : rules'.tag = rules.tag) :
    versionsOf rules' = versionsOf rules := by
  funext change
  have hextract : rules'.extractTag? = rules.extractTag? := by
    funext label
    rw [Rules.extractTag?, htag, Rules.extractTag?]
  rw [versionsOf, hextract, versionsOf]

section Extends

variable (hrules : Rules.ofConfig config = .ok rules) (hmore : Rules.ofConfig more = .ok rules')
  (hextends : more.Extends config)
include hrules hmore hextends

theorem base_eq_of_extends (page : List ChangeSet) (current : String) :
    base rules' page current = base rules page current := by
  simp only [base, anchorVersions, anchor?,
    versionsOf_eq_of_tag_eq (Rules.tag_eq_of_extends hrules hmore hextends)]

theorem level_le_level (page : List ChangeSet) : level rules page ≤ level rules' page := by
  have hversions := versionsOf_eq_of_tag_eq (Rules.tag_eq_of_extends hrules hmore hextends)
  simp only [level, anchor?, sinceAnchor, hversions]
  exact Rules.announced_le_announced hrules hmore hextends _ _

/-- Rules that extend others announce at least what these announce, of a message and of a history, and
    propose no smaller release for one history. All rules extend the built-in ones. -/
theorem release_of_extends :
    (∀ message, rules.classify message ≤ rules'.classify message) ∧
    (∀ messages hasTag, rules.maxBump messages hasTag ≤ rules'.maxBump messages hasTag) ∧
    (∀ (request : PolicyRequest) (settings'? : Option Toml.Table) (log : ChangeLog)
      (history : List ChangeSet) (j j' : Journal) (text text' : String),
      RulesConfig.ofTable? request.settings? = .ok config →
      RulesConfig.ofTable? settings'? = .ok more →
      request.log? = some log → log.Serves request.directory history →
      ((conventional.release request).run j).1 = .ok text →
      ((conventional.release { request with settings? := settings'? }).run j').1 = .ok text' →
      ∃ v v', Version.parse? text = some v ∧ Version.parse? text' = some v' ∧
        v.triple ≤ v'.triple) ∧
    ∀ message, Rules.builtin.classify message ≤ rules.classify message := by
  refine ⟨Rules.classify_le_classify hrules hmore hextends, fun messages hasTag => ?_, ?_,
    Rules.builtin_classify_le hrules⟩
  · rw [Rules.maxBump_eq_announced, Rules.maxBump_eq_announced]
    exact Rules.announced_le_announced hrules hmore hextends hasTag messages
  · intro request settings'? log history j j' text text' hconfig hconfig' hlog hserves h h'
    have hfollow := follow_of_release request hconfig hrules hlog hserves h
    have hfollow' := follow_of_release { request with settings? := settings'? } hconfig' hmore hlog
      hserves h'
    dsimp only at hfollow'
    -- Both are steps from one version, since both find the same release.
    rw [base_eq_of_extends hrules hmore hextends] at hfollow'
    exact follow_le_follow (level_le_level hrules hmore hextends _) hfollow hfollow'

end Extends

theorem exists_ok_of_any {α ε : Type} {result : Except ε α} {p : α → Prop} [DecidablePred p]
    (h : result.toOption.any p = true) : ∃ a, result = .ok a ∧ p a := by
  cases result with
  | error e => cases h
  | ok a => exact ⟨a, rfl, by simpa [Except.toOption] using h⟩

/-- A rule for minor changes is made one for major changes. -/
theorem release_of_extends_after_promotion :
    let history : List ChangeSet := [⟨"perf: c", []⟩, ⟨"fix: b", []⟩, ⟨"release", ["1.2.3"]⟩]
    let pattern : Toml.Value := .array [.string "^perf: .*$"]
    let config : RulesConfig := ⟨none, [], ["^perf: .*$"]⟩
    let more : RulesConfig := ⟨none, ["^perf: .*$"], []⟩
    let request (key : String) : PolicyRequest :=
      ⟨"0.1", ".", some (.ofHistory history), some [(key, pattern)], .default⟩
    more.Extends config ∧
      RulesConfig.ofTable? (request "minor_rules").settings? = .ok config ∧
      RulesConfig.ofTable? (request "major_rules").settings? = .ok more ∧
      ((conventional.release (request "minor_rules")).run .empty).1 = .ok "1.3.0" ∧
      ((conventional.release (request "major_rules")).run .empty).1 = .ok "2.0.0" ∧
      ∃ rules rules', Rules.ofConfig config = .ok rules ∧ Rules.ofConfig more = .ok rules' ∧
        rules.classify "perf: c" ≤ rules'.classify "perf: c" ∧
        ∃ v v', Version.parse? "1.3.0" = some v ∧ Version.parse? "2.0.0" = some v' ∧
          v.triple ≤ v'.triple := by
  intro history pattern config more request
  have hserves := ChangeLog.serves_ofHistory "." history
  have hrun (key : String) {config : RulesConfig} {rules : Rules} {rise : BumpLevel}
      (hconfig : RulesConfig.ofTable? (request key).settings? = .ok config)
      (hrules : Rules.ofConfig config = .ok rules)
      (hanchor : anchorVersions rules history = ["1.2.3"] ∧ level rules history = rise) :
      ((conventional.release (request key)).run .empty).1 = follow rise "1.2.3" := by
    have hpage : history.take (window (request key).limits history.length) = history := rfl
    have hroom : history.length + step .default < wordLimit := by decide
    rw [run_release hconfig hrules rfl hserves hroom, hpage]
    simp [base, hanchor]
  obtain ⟨rules, hrules, hminor⟩ : ∃ rules, Rules.ofConfig config = .ok rules ∧
      anchorVersions rules history = ["1.2.3"] ∧ level rules history = .minor :=
    exists_ok_of_any (by decide +kernel)
  obtain ⟨rules', hrules', hmajor⟩ : ∃ rules, Rules.ofConfig more = .ok rules ∧
      anchorVersions rules history = ["1.2.3"] ∧ level rules history = .major :=
    exists_ok_of_any (by decide +kernel)
  have hrelease := (hrun "minor_rules" rfl hrules hminor).trans
    (show _ = .ok "1.3.0" by decide +kernel)
  have hrelease' := (hrun "major_rules" rfl hrules' hmajor).trans
    (show _ = .ok "2.0.0" by decide +kernel)
  have hextends : more.Extends config := ⟨rfl, by simp [config], by simp [config, more]⟩
  obtain ⟨hclassify, -, hreleases, -⟩ := release_of_extends hrules hrules' hextends
  exact ⟨hextends, rfl, rfl, hrelease, hrelease', rules, rules', hrules, hrules', hclassify _,
    hreleases (request "minor_rules") (request "major_rules").settings? _ _ _ _ _ _ rfl rfl rfl
      hserves hrelease hrelease'⟩

end Policy.Conventional

end Versioning
