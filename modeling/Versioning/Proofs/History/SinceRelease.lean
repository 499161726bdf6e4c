import Versioning.History

/-!
# What a page says about the latest release

The changes since the latest release are those in front of the first change that
names a version. `SinceRelease` says so without reading a page change by change:
no change names a version, or the first one that does names exactly one, or it
names several and the release is ambiguous. These cases exclude each other, and one
of them applies to every page, so there is one outcome for each
(`sinceRelease_iff`): that of the scan.

A page that has come to the first change with a version says the same as every
longer one (`outcome_append`). That change is the *anchor* of the page, and the outcome can be
computed from it (`outcome_eq_anchor`).
-/

namespace Versioning.CommitHistory

/-- The outcome for a page: the changes in front of the first one that names a version, and that
    version. -/
inductive SinceRelease (rules : Rules) : List ChangeSet → Except Failure CommitHistory → Prop
  | untagged {page : List ChangeSet} : (∀ change ∈ page, versionsOf rules change = []) →
      SinceRelease rules page (.ok ⟨page.map (·.message), none⟩)
  | tagged (before : List ChangeSet) (change : ChangeSet) (after : List ChangeSet)
      {version : String} : (∀ newer ∈ before, versionsOf rules newer = []) →
      versionsOf rules change = [version] →
      SinceRelease rules (before ++ change :: after)
        (.ok ⟨before.map (·.message), some version⟩)
  | ambiguous (before : List ChangeSet) (change : ChangeSet) (after : List ChangeSet) :
      (∀ newer ∈ before, versionsOf rules newer = []) → 2 ≤ (versionsOf rules change).length →
      SinceRelease rules (before ++ change :: after)
        (.error (.error (.ambiguousTag (versionsOf rules change))))

/-- The outcome of the scan of a page. -/
def outcome (rules : Rules) (page : List ChangeSet) : Except Failure CommitHistory :=
  (scan rules page).mapError fun versions => .error (.ambiguousTag versions)

variable {rules : Rules}

theorem outcome_of_scan {page : List ChangeSet} {found : CommitHistory}
    (h : scan rules page = .ok found) : outcome rules page = .ok found := by
  rw [outcome, h]
  rfl

theorem outcome_of_scan_error {page : List ChangeSet} {versions : List String}
    (h : scan rules page = .error versions) :
    outcome rules page = .error (.error (.ambiguousTag versions)) := by
  rw [outcome, h]
  rfl

/-- A newer change that names no version only adds its message. -/
theorem SinceRelease.cons {page : List ChangeSet} {result : Except Failure CommitHistory}
    {change : ChangeSet} (h : SinceRelease rules page result)
    (hc : versionsOf rules change = []) :
    SinceRelease rules (change :: page) (result.map (CommitHistory.cons change.message)) := by
  have hcons : ∀ {before : List ChangeSet}, (∀ newer ∈ before, versionsOf rules newer = []) →
      ∀ newer ∈ change :: before, versionsOf rules newer = [] :=
    fun hb _ hn => (List.mem_cons.1 hn).elim (fun he => he ▸ hc) (hb _)
  cases h with
  | untagged hb => exact .untagged (hcons hb)
  | tagged before _ after hb hv => exact .tagged (change :: before) _ after (hcons hb) hv
  | ambiguous before _ after hb hv => exact .ambiguous (change :: before) _ after (hcons hb) hv

/-- The scan finds the outcome of every page. -/
theorem sinceRelease_outcome (rules : Rules) (page : List ChangeSet) :
    SinceRelease rules page (outcome rules page) := by
  induction page with
  | nil => exact .untagged fun _ h => absurd h List.not_mem_nil
  | cons change rest ih =>
    rw [outcome, scan]
    split
    · next hc =>
      have := ih.cons hc
      rw [outcome] at this
      cases hs : scan rules rest <;> rw [hs] at this <;> exact this
    · next version hc =>
      exact .tagged [] _ rest (fun _ h => absurd h List.not_mem_nil) hc
    · next hne hns =>
      have hlen : 2 ≤ (versionsOf rules change).length := by
        rcases hv : versionsOf rules change with _ | ⟨v, _ | ⟨w, vs⟩⟩
        · exact absurd hv hne
        · exact absurd hv (hns v)
        · simp
      exact .ambiguous [] _ rest (fun _ h => absurd h List.not_mem_nil) hlen

/-- The scan of a page whose newer changes name no version goes on to the older ones. -/
theorem scan_append_of_untagged {before : List ChangeSet}
    (hb : ∀ newer ∈ before, versionsOf rules newer = []) (rest : List ChangeSet) :
    scan rules (before ++ rest) =
      (scan rules rest).map fun h => { h with changes := before.map (·.message) ++ h.changes } := by
  induction before with
  | nil => cases hs : scan rules rest <;> simp [hs, Except.map]
  | cons change before ih =>
    rw [List.cons_append, scan, hb change List.mem_cons_self]
    dsimp only
    rw [ih fun newer hn => hb newer (List.mem_cons_of_mem _ hn)]
    cases scan rules rest <;> rfl

/-- Puts newer changes in front. -/
def prepend (messages : List String) (history : CommitHistory) : CommitHistory :=
  { history with changes := messages ++ history.changes }

/-- What is found after some changes has exactly these if nothing comes between them and the
    release. -/
theorem map_prepend_eq_ok_iff {messages : List String} {version? : Option String}
    {result : Except Failure CommitHistory} :
    result.map (prepend messages) = .ok ⟨messages, version?⟩ ↔ result = .ok ⟨[], version?⟩ := by
  rcases result with failure | ⟨changes, found?⟩ <;> simp [Except.map, prepend]

/-- The outcome of a page whose newer changes name no version is that of the older ones, with the
    newer ones in front. -/
theorem outcome_append_of_untagged {before : List ChangeSet}
    (hb : ∀ newer ∈ before, versionsOf rules newer = []) (rest : List ChangeSet) :
    outcome rules (before ++ rest) =
      (outcome rules rest).map (prepend (before.map (·.message))) := by
  rw [outcome, scan_append_of_untagged hb, outcome]
  cases scan rules rest <;> rfl

/-- The outcome of a page is that of its scan, and no other. -/
theorem sinceRelease_iff {page : List ChangeSet} {result : Except Failure CommitHistory} :
    SinceRelease rules page result ↔ result = outcome rules page := by
  constructor
  · intro h
    cases h with
    | untagged hb =>
      have hscan := scan_append_of_untagged hb []
      rw [List.append_nil] at hscan
      refine (outcome_of_scan ?_).symm
      simp [hscan, scan, empty, Except.map]
    | tagged before change after hb hv =>
      refine (outcome_of_scan ?_).symm
      rw [scan_append_of_untagged hb, scan, hv]
      simp [Except.map]
    | ambiguous before change after hb hv =>
      refine (outcome_of_scan_error ?_).symm
      rw [scan_append_of_untagged hb, scan]
      rcases hw : versionsOf rules change with _ | ⟨v, _ | ⟨w, vs⟩⟩
      · simp [hw] at hv
      · simp [hw] at hv
      · rfl
  · rintro rfl
    exact sinceRelease_outcome rules page

/-- Older changes do not count once a version is found. -/
theorem outcome_append {page : List ChangeSet} (older : List ChangeSet)
    (h : ∀ changes, outcome rules page ≠ .ok ⟨changes, none⟩) :
    outcome rules (page ++ older) = outcome rules page := by
  refine (sinceRelease_iff.1 ?_).symm
  have hp := sinceRelease_outcome rules page
  generalize outcome rules page = result at h hp
  cases hp with
  | untagged _ => exact absurd rfl (h _)
  | tagged before change after hb hv =>
    simpa using SinceRelease.tagged before change (after ++ older) hb hv
  | ambiguous before change after hb hv =>
    simpa using SinceRelease.ambiguous before change (after ++ older) hb hv

/-- The version that is found stands at a change; the changes in front of it are collected, and
    none of them names a version. -/
theorem exists_of_outcome_tagged {page : List ChangeSet} {changes : List String}
    {version : String} (h : outcome rules page = .ok ⟨changes, some version⟩) :
    ∃ before change after, page = before ++ change :: after ∧
      (∀ newer ∈ before, versionsOf rules newer = []) ∧ versionsOf rules change = [version] ∧
      changes = before.map (·.message) := by
  have hp := h ▸ sinceRelease_outcome rules page
  cases hp with
  | tagged before change after hb hv => exact ⟨before, change, after, rfl, hb, hv, rfl⟩

/-- A version is found without any changes exactly if it stands at the newest change. -/
theorem outcome_eq_tagged_nil_iff {page : List ChangeSet} {version : String} :
    outcome rules page = .ok ⟨[], some version⟩ ↔
      ∃ change, page.head? = some change ∧ versionsOf rules change = [version] := by
  constructor
  · intro h
    obtain ⟨before, change, after, rfl, -, hchange, hbefore⟩ := exists_of_outcome_tagged h
    obtain rfl := List.map_eq_nil_iff.1 hbefore.symm
    exact ⟨change, rfl, hchange⟩
  · rintro ⟨change, hhead, hchange⟩
    obtain ⟨rest, rfl⟩ := List.head?_eq_some_iff.1 hhead
    exact (sinceRelease_iff.1 (.tagged [] change rest (by simp) hchange)).symm

/-! ### The anchor -/

/-- The first change that names a version. -/
def anchor? (rules : Rules) (page : List ChangeSet) : Option ChangeSet :=
  page.find? fun change => !(versionsOf rules change).isEmpty

/-- The versions that the anchor names, if there is one. -/
def anchorVersions (rules : Rules) (page : List ChangeSet) : List String :=
  ((anchor? rules page).map (versionsOf rules)).getD []

/-- The messages of the changes in front of the anchor, or of all of them without one. -/
def sinceAnchor (rules : Rules) (page : List ChangeSet) : List String :=
  (page.takeWhile fun change => (versionsOf rules change).isEmpty).map (·.message)

/-- Where the anchor stands. -/
theorem anchor?_eq_some_iff {page : List ChangeSet} {anchor : ChangeSet} :
    anchor? rules page = some anchor ↔ versionsOf rules anchor ≠ [] ∧
      ∃ before after, page = before ++ anchor :: after ∧
        ∀ newer ∈ before, versionsOf rules newer = [] := by
  simp [anchor?, List.find?_eq_some_iff_append]

/-- An anchor names a version. -/
theorem isSome_anchor? (page : List ChangeSet) :
    (anchor? rules page).isSome = !(anchorVersions rules page).isEmpty := by
  cases h : anchor? rules page with
  | none => simp [anchorVersions, h]
  | some anchor => simp [anchorVersions, h, (anchor?_eq_some_iff.1 h).1]

/-- Changes that name no version are newer than the anchor. -/
theorem sinceAnchor_append {before : List ChangeSet}
    (hb : ∀ newer ∈ before, versionsOf rules newer = []) (rest : List ChangeSet) :
    sinceAnchor rules (before ++ rest) = before.map (·.message) ++ sinceAnchor rules rest := by
  rw [sinceAnchor, List.takeWhile_append_of_pos fun newer hn => by rw [hb newer hn]; rfl,
    List.map_append, sinceAnchor]

/-- The outcome of a page is decided by its anchor. -/
theorem outcome_eq_anchor (page : List ChangeSet) :
    outcome rules page = match anchorVersions rules page with
      | [] => .ok ⟨sinceAnchor rules page, none⟩
      | [version] => .ok ⟨sinceAnchor rules page, some version⟩
      | versions => .error (.error (.ambiguousTag versions)) := by
  cases h : anchor? rules page with
  | none =>
    have hb : ∀ change ∈ page, versionsOf rules change = [] := by
      simpa [anchor?, List.find?_eq_none] using h
    have hsince : sinceAnchor rules page = page.map (·.message) := by
      simpa [sinceAnchor] using sinceAnchor_append hb []
    rw [anchorVersions, h, hsince]
    exact (sinceRelease_iff.1 (.untagged hb)).symm
  | some anchor =>
    obtain ⟨hne, before, after, rfl, hb⟩ := anchor?_eq_some_iff.1 h
    have hsince : sinceAnchor rules (before ++ anchor :: after) = before.map (·.message) := by
      rw [sinceAnchor_append hb]
      simp [sinceAnchor, hne]
    rw [anchorVersions, h, hsince, Option.map_some, Option.getD_some]
    rcases hv : versionsOf rules anchor with _ | ⟨v, _ | ⟨w, vs⟩⟩
    · exact absurd hv hne
    · exact (sinceRelease_iff.1 (.tagged before anchor after hb hv)).symm
    · have hmany : 2 ≤ (versionsOf rules anchor).length := by simp [hv]
      have hout := (sinceRelease_iff.1 (.ambiguous before anchor after hb hmany)).symm
      rwa [hv] at hout

end Versioning.CommitHistory
