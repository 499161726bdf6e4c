import Versioning.Policy
import Versioning.Proofs.Version.Reading
import Versioning.Proofs.Version.Step

/-!
# Going on after a release

Both built-in policies go on with the next minor version, and differ only in how they write it:
one keeps the count of numbers, the other one always writes three (`Policy.goOn`). Whichever it
is, the text is read back as a version under development without a qualifier, whose numbers are
the raised ones (`Policy.GoesOn`).
-/

namespace Versioning

namespace Policy

/-- The next minor version after that of a text, as it is written. -/
def goOn (write : Version → String) (base : String) : Except Failure String :=
  match Version.parse? base with
  | none => .error (.error (.versionFormat (.unreadable base)))
  | some v => (v.bump? .minor).elim (.error .overflow) fun next => .ok (write next)

/-- A text names the next minor version after that of another text, under development and without
    a qualifier. -/
def GoesOn (base text : String) : Prop :=
  ∃ v next, Version.parse? base = some v ∧ Version.parse? text = some next ∧
    next.snapshot = true ∧ next.qualifier? = none ∧ next.triple = v.raise .minor

variable {request : PolicyRequest}

/-! ### What is proposed -/

theorem run_development_markerOnly (j : Journal) :
    ((markerOnly.development request).run j).1 = goOn (·.toSnapshot.text) request.version := by
  simp only [markerOnly, Failure.run_bind, readVersion, goOn]
  cases Version.parse? request.version with
  | none => simp
  | some v => cases h : v.bump? .minor <;> simp [h]

theorem run_development_conventional (j : Journal) :
    ((conventional.development request).run j).1 =
      goOn (fun next => next.strictText ++ "-" ++ snapshotMarker) request.version := by
  simp only [conventional, Conventional.suggestDevelopment, Failure.run_bind, readVersion, goOn]
  cases Version.parse? request.version with
  | none => simp
  | some v => cases h : v.bump? .minor <;> simp [h]

/-! ### How it is read -/

/-- A way to write versions that keeps the numbers, and adds the marker in place of a qualifier. -/
def Marks (write : Version → String) : Prop :=
  ∀ v : Version, v.qualifier? = none → ∃ marked, Version.parse? (write v) = some marked ∧
    marked.snapshot = true ∧ marked.qualifier? = none ∧ marked.triple = v.triple

theorem marks_toSnapshot : Marks (·.toSnapshot.text) :=
  fun v hv => ⟨v.toSnapshot, Version.parse?_text hv, rfl, hv, rfl⟩

/-- A strict text with the marker behind it is that of a version under development. -/
theorem strictText_append_marker (v : Version) : v.strictText ++ "-" ++ snapshotMarker =
    (⟨.three v.major v.minor v.patch, none, true⟩ : Version).text := by
  simp [Version.strictText, Version.text, Version.chars, ← String.toList_inj]

theorem marks_strictText : Marks fun next => next.strictText ++ "-" ++ snapshotMarker := by
  intro v _
  let marked : Version := ⟨.three v.major v.minor v.patch, none, true⟩
  have htext : v.strictText ++ "-" ++ snapshotMarker = marked.text := strictText_append_marker v
  exact ⟨marked, (congrArg Version.parse? htext).trans (Version.parse?_text rfl), rfl, rfl, rfl⟩

theorem Marks.goesOn {write : Version → String} (hwrite : Marks write) {base text : String}
    (h : goOn write base = .ok text) : GoesOn base text := by
  rw [goOn] at h
  split at h
  · cases h
  · next v hbase =>
    -- There is a text only if there is a next version.
    cases hnext : v.bump? .minor with
    | none =>
      rw [hnext] at h
      cases h
    | some next =>
      rw [hnext] at h
      cases h
      obtain ⟨marked, hmarked, hsnapshot, hqualifier, htriple⟩ :=
        hwrite next (Version.qualifier?_of_bump? (by decide) hnext)
      refine ⟨v, marked, hbase, hmarked, hsnapshot, hqualifier, ?_⟩
      rw [htriple, Version.triple_of_bump? hnext]

end Policy

/-- The policy that is used when none is chosen goes on with the next minor version, and so does the
    policy of conventional commits under each of its ids. -/
theorem Policies.builtin_goesOn {id : String} (hid : id ∈ defaultId :: conventionalIds) :
    ∃ policy, builtin.get id = .ok policy ∧
      ∀ (request : PolicyRequest) (j : Journal) (text : String),
        ((policy.development request).run j).1 = .ok text → Policy.GoesOn request.version text := by
  have hdefault : ∀ (request : PolicyRequest) (j : Journal) (text : String),
      ((Policy.markerOnly.development request).run j).1 = .ok text →
        Policy.GoesOn request.version text := by
    intro request j text h
    exact Policy.marks_toSnapshot.goesOn ((Policy.run_development_markerOnly j).symm.trans h)
  have hconventional : ∀ (request : PolicyRequest) (j : Journal) (text : String),
      ((Policy.conventional.development request).run j).1 = .ok text →
        Policy.GoesOn request.version text := by
    intro request j text h
    exact Policy.marks_strictText.goesOn ((Policy.run_development_conventional j).symm.trans h)
  simp only [conventionalIds, List.mem_cons, List.not_mem_nil, or_false] at hid
  rcases hid with rfl | rfl | rfl
  · exact ⟨_, rfl, hdefault⟩
  · exact ⟨_, rfl, hconventional⟩
  · exact ⟨_, rfl, hconventional⟩

end Versioning
