import Versioning.Proofs.Version.Language
import Versioning.Proofs.Version.Step

/-!
# Versions that are read back

The text of a version is written with hyphens between its parts, and hyphens may be part of the
qualifier, too. So a text can be that of two versions: `1-SNAPSHOT` is the version `1` with the
marker, and the version `1` with a qualifier that looks like it. Blanks at the end of a qualifier
are lost when the text is read.

There is no other way to go wrong. A version is *legible* if the marker ends its text, or its
qualifier, if there is one, neither ends as the marker does nor with a blank (`Version.Legible`).
Just the legible versions are read back from their texts (`Version.parse?_text_iff`). Whatever is
read is legible, and remains so when the version takes steps and gets the marker
(`Version.Derived`).
-/

namespace Versioning

namespace Version

/-- Whether the text of a version lets its qualifier be told from the marker and from blanks. -/
def Legible (v : Version) : Prop :=
  v.snapshot = true ∨ v.qualifier? = none ∨ ∃ q, v.qualifier? = some q ∧
    ¬snapshotMarker.toList <:+ q.toList ∧ ∀ c ∈ q.toList.getLast?, Text.isBlankChar c = false

/-! ### Writing -/

/-- The qualifier of a version as it is written. -/
def qualifierChars (v : Version) : List Char :=
  match v.qualifier? with
  | some q => '-' :: q.toList
  | none => []

/-- The marker of a version as it is written. -/
def markerChars (v : Version) : List Char :=
  if v.snapshot then '-' :: snapshotMarker.toList else []

theorem chars_eq (v : Version) :
    v.chars = v.numbers.chars ++ (v.qualifierChars ++ v.markerChars) := by
  rw [chars, List.append_assoc]
  rfl

theorem qualifies_qualifierChars {v : Version} (hq : v.qualifier? ≠ some "") :
    Qualifies v.qualifierChars v.qualifier? := by
  rw [qualifierChars]
  cases hqualifier : v.qualifier? with
  | none => exact .nil
  | some q => exact .qualifier fun h => hq (by rw [hqualifier, h])

/-- A text with a qualifier at its end ends as the qualifier does. -/
theorem getLast?_append_qualifier {front : List Char} {q : String} (hq : q ≠ "") :
    (front ++ '-' :: q.toList).getLast? = q.toList.getLast? := by
  have hne : q.toList ≠ [] := mt String.toList_eq_nil_iff.1 hq
  rw [List.getLast?_append, List.getLast?_cons, List.getLast?_eq_some_getLast hne]
  rfl

namespace Legible

variable {v : Version} (h : v.Legible)
include h

/-- Without the marker, a legible version does not end as if it had it. -/
theorem not_suffix (hsnapshot : v.snapshot = false) :
    ¬snapshotMarker.toList <:+ v.qualifierChars := by
  intro hsuffix
  obtain hmarked | hnone | ⟨q, hq, hmarker, -⟩ := h
  · rw [hsnapshot] at hmarked
    cases hmarked
  · rw [qualifierChars, hnone] at hsuffix
    exact absurd hsuffix (by decide)
  · rw [qualifierChars, hq] at hsuffix
    exact hmarker (snapshotMarker_suffix_hyphen_iff.1 hsuffix)

/-- The marker at the end of a legible version is its own. -/
theorem snapshot_iff :
    v.snapshot = true ↔ snapshotMarker.toList <:+ v.qualifierChars ++ v.markerChars := by
  cases hsnapshot : v.snapshot with
  | false => simpa [markerChars, hsnapshot] using h.not_suffix hsnapshot
  | true =>
    have hmarker : snapshotMarker.toList <:+ '-' :: snapshotMarker.toList := List.suffix_cons _ _
    simpa [markerChars, hsnapshot] using hmarker.trans (List.suffix_append _ _)

/-- Taking the marker off leaves the qualifier. -/
theorem unmarked : Unmarked (v.qualifierChars ++ v.markerChars) v.qualifierChars := by
  cases hsnapshot : v.snapshot with
  | false =>
    rw [markerChars, hsnapshot, if_neg Bool.false_ne_true, List.append_nil]
    exact .absent (h.not_suffix hsnapshot)
  | true =>
    rw [markerChars, if_pos hsnapshot]
    exact .hyphened _

/-- The last character of a legible version is no blank. -/
theorem last (hq : v.qualifier? ≠ some "") : ∀ c ∈ v.chars.getLast?, Text.isBlankChar c = false := by
  intro c hc
  rw [chars_eq] at hc
  cases hsnapshot : v.snapshot with
  | true =>
    rw [markerChars, if_pos hsnapshot] at hc
    obtain rfl : 'T' = c := by simpa [snapshotMarker] using hc
    decide
  | false =>
    rw [markerChars, hsnapshot, if_neg Bool.false_ne_true, List.append_nil, qualifierChars] at hc
    obtain hmarked | hnone | ⟨q, hqualifier, -, hlast⟩ := h
    · rw [hsnapshot] at hmarked
      cases hmarked
    · rw [hnone, List.append_nil] at hc
      exact Numbers.isBlankChar_of_mem_chars (List.mem_of_getLast? hc)
    · rw [hqualifier] at hc
      rw [getLast?_append_qualifier fun hempty => hq (by rw [hqualifier, hempty])] at hc
      exact hlast c hc

end Legible

/-- Nothing is trimmed from the text of a legible version. -/
theorem Legible.trims {v : Version} (h : v.Legible) (hq : v.qualifier? ≠ some "") :
    Text.Trims v.chars v.chars where
  split := ⟨[], [], by simp, by simp, by simp⟩
  head c hc := by
    have hne : v.numbers.chars ≠ [] := fun hnil => by
      have hread := Numbers.parse?_chars v.numbers
      rw [hnil] at hread
      cases hread
    obtain ⟨d, rest, hchars⟩ := List.exists_cons_of_ne_nil hne
    rw [chars_eq, hchars] at hc
    cases hc
    exact Numbers.isBlankChar_of_mem_chars (hchars ▸ List.mem_cons_self)
  last := h.last hq

/-- The text of a legible version spells it. -/
theorem Legible.spells {v : Version} (h : v.Legible) (hq : v.qualifier? ≠ some "") :
    Spells v.numbers.chars (v.qualifierChars ++ v.markerChars) v where
  spelled := Numbers.spells_chars v.numbers
  qualifier := ⟨_, h.unmarked, qualifies_qualifierChars hq⟩
  snapshot := by
    refine h.snapshot_iff.trans ⟨List.suffix_append_of_suffix, fun hsuffix => ?_⟩
    refine suffix_of_suffix_append hsuffix ?_
    rintro _ ⟨⟩
    exact not_mem_of_spells (Numbers.spells_chars v.numbers) (by decide) (by decide) (by decide)

/-! ### Reading -/

/-- Without the marker at its end, a text is left as it is. -/
theorem Unmarked.eq_of_not_suffix {text body : List Char} (h : Unmarked text body)
    (hmarker : ¬snapshotMarker.toList <:+ text) : text = body := by
  cases h with
  | absent => rfl
  | hyphened => exact absurd ((List.suffix_cons _ _).trans (List.suffix_append _ _)) hmarker
  | bare => exact absurd (List.suffix_append _ _) hmarker

theorem qualifier?_ne_of_parse? {text : String} {v : Version} (h : parse? text = some v) :
    v.qualifier? ≠ some "" := by
  obtain ⟨numbers, tail, -, hspells⟩ := parse?_eq_some_iff.1 h
  obtain ⟨body, -, hqualifies⟩ := hspells.qualifier
  intro hempty
  rw [hempty] at hqualifies
  cases hqualifies with
  | qualifier hne => exact hne rfl

/-- What is read is legible. -/
theorem legible_of_parse? {text : String} {v : Version} (h : parse? text = some v) : v.Legible := by
  obtain ⟨numbers, tail, hinner, hspells⟩ := parse?_eq_some_iff.1 h
  cases hsnapshot : v.snapshot with
  | true => exact .inl hsnapshot
  | false =>
    cases hq : v.qualifier? with
    | none => exact .inr (.inl hq)
    | some q =>
      have hmarker : ¬snapshotMarker.toList <:+ numbers ++ tail := fun hsuffix => by
        rw [hspells.snapshot.2 hsuffix] at hsnapshot
        cases hsnapshot
      obtain ⟨body, hunmarked, hqualifies⟩ := hspells.qualifier
      obtain rfl := hunmarked.eq_of_not_suffix fun hsuffix =>
        hmarker (List.suffix_append_of_suffix hsuffix)
      rw [hq] at hqualifies
      cases hqualifies with
      | qualifier hne =>
        have hends : q.toList <:+ numbers ++ '-' :: q.toList :=
          List.suffix_append_of_suffix (List.suffix_cons _ _)
        refine .inr (.inr ⟨q, hq, fun hsuffix => hmarker (hsuffix.trans hends), ?_⟩)
        rw [← getLast?_append_qualifier hne]
        exact (Text.trimList_eq_iff.1 hinner).last

/-- Just the legible versions are read back. -/
theorem parse?_text_iff {v : Version} (hq : v.qualifier? ≠ some "") :
    parse? v.text = some v ↔ v.Legible := by
  refine ⟨legible_of_parse?, fun h => ?_⟩
  refine parse?_eq_some_iff.2 ⟨_, _, ?_, h.spells hq⟩
  rw [text, String.toList_ofList, Text.trimList_eq_iff.2 (h.trims hq), chars_eq]

/-! ### Steps -/

/-- The versions that come of one by steps that do not overflow and by adding the marker. -/
inductive Derived (v : Version) : Version → Prop
  | refl : Derived v v
  | bump? {w next : Version} {level : BumpLevel} :
    Derived v w → w.bump? level = some next → Derived v next
  | toSnapshot {w : Version} : Derived v w → Derived v w.toSnapshot

/-- A version that comes of a legible one is legible. -/
theorem Derived.legible {v w : Version} (h : Derived v w) (hq : v.qualifier? ≠ some "")
    (hv : v.Legible) : w.qualifier? ≠ some "" ∧ w.Legible := by
  induction h with
  | refl => exact ⟨hq, hv⟩
  | @bump? w next level _ hnext ih =>
    by_cases hlevel : level = .none
    · subst hlevel
      cases hnext
      exact ih
    · have hnone := qualifier?_of_bump? hlevel hnext
      exact ⟨by rw [hnone]; exact nofun, .inr (.inl hnone)⟩
  | toSnapshot _ ih => exact ⟨ih.1, .inl rfl⟩

/-- Reading is the inverse of writing just for the legible versions. Among them is every version
    that comes of one that was read. -/
theorem parse?_text_inverse :
    (∀ v : Version, v.qualifier? ≠ some "" →
      (parse? v.text = some v ↔ v.snapshot = true ∨ v.qualifier? = none ∨
        ∃ q, v.qualifier? = some q ∧ ¬snapshotMarker.toList <:+ q.toList ∧
          ∀ c ∈ q.toList.getLast?, Text.isBlankChar c = false)) ∧
      ∀ (text : String) (v w : Version), parse? text = some v → Derived v w →
        parse? w.text = some w := by
  refine ⟨fun v hq => parse?_text_iff hq, fun text v w hread hderived => ?_⟩
  obtain ⟨hq, hlegible⟩ :=
    hderived.legible (qualifier?_ne_of_parse? hread) (legible_of_parse? hread)
  exact (parse?_text_iff hq).2 hlegible

/-- A qualifier that looks like the marker is read back only with the marker behind it. -/
theorem parse?_text_inverse_of_marker_twice :
    parse? "1-SNAPSHOT-SNAPSHOT" = some ⟨.one 1, some "SNAPSHOT", true⟩ ∧
      parse? (text ⟨.one 1, some "SNAPSHOT", true⟩) = some ⟨.one 1, some "SNAPSHOT", true⟩ ∧
      parse? (text ⟨.one 1, some "SNAPSHOT", false⟩) ≠ some ⟨.one 1, some "SNAPSHOT", false⟩ := by
  have hread : parse? "1-SNAPSHOT-SNAPSHOT" = some ⟨.one 1, some "SNAPSHOT", true⟩ := by
    decide +kernel
  refine ⟨hread, parse?_text_inverse.2 _ _ _ hread .refl, fun h => ?_⟩
  obtain hmarked | hnone | ⟨_, ⟨⟩, hmarker, -⟩ := (parse?_text_inverse.1 _ (by decide)).1 h
  · cases hmarked
  · cases hnone
  · exact hmarker (by decide)

end Version

end Versioning
