import Versioning.Proofs.Version.Reading

/-!
# What the marker is

A version is one under development if its text ends with the marker or with a time stamp. Reading
a text backwards recognises just the texts that end with one (`hasTimestamp_iff`).

When a version is read, only the marker is told from the rest of its text; a time stamp becomes the
qualifier, and so does a second marker. The release of a version drops the one and keeps the other.
Since numbers have neither a letter nor a hyphen, the text of the release carries the marker exactly
if the qualifier does, with the hyphen in front of it (`Version.isSnapshot_text_toRelease`).
-/

namespace Versioning

/-! ### Time stamps -/

/-- The ends of texts that count as time stamps: eight digits, six digits, and a number. -/
inductive IsTimestamp : List Char → Prop
  | intro {date time build : List Char} : (∀ c ∈ date, Unicode.isDecimalDigit c = true) →
    date.length = 8 → (∀ c ∈ time, Unicode.isDecimalDigit c = true) → time.length = 6 →
    (∀ c ∈ build, Unicode.isDecimalDigit c = true) → build ≠ [] →
    IsTimestamp ('-' :: (date ++ '.' :: (time ++ '-' :: build)))

/-- Some digits and a separator are removed if they are there. -/
theorem dropDigitsThen_eq_some_iff {count : Nat} {separator : Char} {text rest : List Char} :
    dropDigitsThen count separator text = some rest ↔ ∃ digits,
      (∀ c ∈ digits, Unicode.isDecimalDigit c = true) ∧ digits.length = count ∧
        text = digits ++ separator :: rest := by
  rw [dropDigitsThen]
  constructor
  · intro h
    split at h
    · next hdigits =>
      simp only [Bool.and_eq_true, decide_eq_true_eq, List.all_eq_true] at hdigits
      split at h
      · next c behind hdrop =>
        split at h <;> cases h
        next hc =>
        subst hc
        refine ⟨text.take count, hdigits.2, List.length_take_of_le hdigits.1, ?_⟩
        rw [← hdrop, List.take_append_drop]
      · cases h
    · cases h
  · rintro ⟨digits, hdigits, rfl, rfl⟩
    simpa using hdigits

/-- The digits in front of another character are all of the first digits. -/
theorem takeWhile_digits {digits : List Char}
    (hdigits : ∀ c ∈ digits, Unicode.isDecimalDigit c = true) (rest : List Char) :
    (digits ++ '-' :: rest).takeWhile Unicode.isDecimalDigit = digits := by
  have hhyphen : Unicode.isDecimalDigit '-' = false := by decide
  rw [List.takeWhile_append_of_pos hdigits, List.takeWhile_cons, hhyphen]
  simp

/-- What is left behind the first digits tells how the text is made. -/
theorem exists_digits_of_drop {text rest : List Char}
    (h : text.drop (text.takeWhile Unicode.isDecimalDigit).length = rest) :
    ∃ digits, text.takeWhile Unicode.isDecimalDigit = digits ∧
      (∀ c ∈ digits, Unicode.isDecimalDigit c = true) ∧ text = digits ++ rest := by
  refine ⟨_, rfl, List.all_eq_true.1 List.all_takeWhile, ?_⟩
  have hsplit :=
    (List.take_append_drop (text.takeWhile Unicode.isDecimalDigit).length text).symm
  rwa [h, ← List.prefix_iff_eq_take.1 (List.takeWhile_prefix _)] at hsplit

/-- A time stamp at the end is recognised, if there is no line break in front of it. -/
theorem hasTimestamp_of_isTimestamp {start stamp : List Char} (h : IsTimestamp stamp)
    (hline : '\n' ∉ start) : hasTimestamp (start ++ stamp) = true := by
  obtain @⟨date, time, build, hdate, hdateLength, htime, htimeLength, hbuild, hbuildLength⟩ := h
  have hreversed :
      (start ++ '-' :: (date ++ '.' :: (time ++ '-' :: build))).reverse = build.reverse ++
        '-' :: (time.reverse ++ '.' :: (date.reverse ++ '-' :: start.reverse)) := by
    simp
  have hdrop (l : List Char) : (build.reverse ++ l).drop build.reverse.length = l :=
    List.drop_left
  have htimed (l : List Char) : dropDigitsThen 6 '.' (time.reverse ++ '.' :: l) = some l :=
    dropDigitsThen_eq_some_iff.2
      ⟨time.reverse, by simpa using htime, by simpa using htimeLength, rfl⟩
  have hdated (l : List Char) : dropDigitsThen 8 '-' (date.reverse ++ '-' :: l) = some l :=
    dropDigitsThen_eq_some_iff.2
      ⟨date.reverse, by simpa using hdate, by simpa using hdateLength, rfl⟩
  rw [hasTimestamp, hreversed, takeWhile_digits (by simpa using hbuild), hdrop]
  simp [htimed, hdated, hbuildLength, hline]

/-- A text is recognised exactly if it ends with a time stamp behind a single line. -/
theorem hasTimestamp_iff {text : List Char} : hasTimestamp text = true ↔
    ∃ start stamp, text = start ++ stamp ∧ IsTimestamp stamp ∧ '\n' ∉ start := by
  constructor
  · intro h
    rw [hasTimestamp] at h
    split at h
    · next rest hrest =>
      obtain ⟨build, hdigits, hbuild, htext⟩ := exists_digits_of_drop hrest
      rw [hdigits] at h
      split at h
      · next behind htime =>
        split at h
        · next start hdate =>
          simp only [Bool.and_eq_true, Bool.not_eq_true', List.isEmpty_eq_false_iff,
            List.contains_eq_mem, decide_eq_false_iff_not] at h
          obtain ⟨time, htimeDigits, htimeLength, rfl⟩ := dropDigitsThen_eq_some_iff.1 htime
          obtain ⟨date, hdateDigits, hdateLength, rfl⟩ := dropDigitsThen_eq_some_iff.1 hdate
          -- The parts were found from the end of the text on.
          refine ⟨start.reverse,
            '-' :: (date.reverse ++ '.' :: (time.reverse ++ '-' :: build.reverse)),
            ?_, .intro ?_ ?_ ?_ ?_ ?_ ?_, ?_⟩
          · rw [← List.reverse_reverse text, htext]
            simp
          · simpa using hdateDigits
          · simpa using hdateLength
          · simpa using htimeDigits
          · simpa using htimeLength
          · simpa using hbuild
          · simpa using h.1
          · simpa using h.2
        · cases h
      · cases h
    · cases h
  · rintro ⟨start, stamp, rfl, hstamp, hline⟩
    exact hasTimestamp_of_isTimestamp hstamp hline

/-- A part in front of the first hyphen does not count for the time stamp. -/
theorem hasTimestamp_append {front rest : List Char} (hhyphen : '-' ∉ front)
    (hline : '\n' ∉ front) : hasTimestamp (front ++ '-' :: rest) = hasTimestamp ('-' :: rest) := by
  rw [Bool.eq_iff_iff, hasTimestamp_iff, hasTimestamp_iff]
  constructor
  · rintro ⟨start, stamp, hsplit, hstamp, hstart⟩
    obtain ⟨behind, rfl, hrest⟩ | ⟨behind, rfl, hrest⟩ := List.append_eq_append_iff.1 hsplit
    · exact ⟨behind, stamp, hrest, hstamp, fun h => hstart (List.mem_append_right _ h)⟩
    · -- The time stamp starts with a hyphen, so it cannot start in front of the first one.
      cases behind with
      | nil => exact ⟨[], stamp, hrest.symm, hstamp, List.not_mem_nil⟩
      | cons c behind =>
        cases hstamp
        obtain rfl : '-' = c := (List.cons_eq_cons.1 hrest).1
        exact absurd (List.mem_append_right _ List.mem_cons_self) hhyphen
  · rintro ⟨start, stamp, hsplit, hstamp, hstart⟩
    refine ⟨front ++ start, stamp, by rw [hsplit, List.append_assoc], hstamp, ?_⟩
    exact fun h => (List.mem_append.1 h).elim hline hstart

/-! ### The marker -/

/-- A part in front of a hyphen does not count for the marker. -/
theorem isSuffixOf_snapshotMarker_append (front rest : List Char) :
    snapshotMarker.toList.isSuffixOf (front ++ '-' :: rest) =
      snapshotMarker.toList.isSuffixOf ('-' :: rest) := by
  rw [Bool.eq_iff_iff, List.isSuffixOf_iff_suffix, List.isSuffixOf_iff_suffix]
  refine ⟨fun h => ?_, List.suffix_append_of_suffix⟩
  -- The hyphen cannot be part of the marker.
  have hor := List.suffix_or_suffix_of_suffix h (List.suffix_append front _)
  exact hor.resolve_right fun hlong => absurd (hlong.subset List.mem_cons_self) (by decide)

/-- Neither a hyphen nor a line break is part of numbers. -/
theorem Numbers.not_mem_chars {numbers : Numbers} {c : Char} (hc : c.toNat < '.'.toNat) :
    c ∉ numbers.chars :=
  fun h => Nat.not_le_of_lt hc (toNat_of_mem_chars h).1

namespace Version

/-- The qualifier of a version, with the hyphen in front of it, ends as a version under development
    does. -/
def QualifierMarked (v : Version) : Prop :=
  ∃ qualifier, v.qualifier? = some qualifier ∧ isSnapshot ("-" ++ qualifier) = true

/-- The release of a version is one under development exactly if its qualifier says so. -/
theorem isSnapshot_text_toRelease (v : Version) :
    isSnapshot v.toRelease.text = true ↔ v.QualifierMarked := by
  obtain ⟨numbers, qualifier?, snapshot⟩ := v
  cases qualifier? with
  | none =>
    have hmarker : ¬ snapshotMarker.toList <:+ numbers.chars := fun h =>
      absurd (Numbers.toNat_of_mem_chars (h.subset (by decide : 'S' ∈ _))) (by decide)
    have hstamp : hasTimestamp numbers.chars ≠ true := by
      rw [Ne, hasTimestamp_iff]
      rintro ⟨start, _, hsplit, ⟨⟩, -⟩
      have hhyphen : '-' ∈ numbers.chars := by simp [hsplit]
      exact Numbers.not_mem_chars (by decide) hhyphen
    simp [QualifierMarked, isSnapshot, text, chars, toRelease, hmarker, hstamp]
  | some qualifier =>
    have hstamp : hasTimestamp (numbers.chars ++ '-' :: qualifier.toList) =
        hasTimestamp ('-' :: qualifier.toList) :=
      hasTimestamp_append (Numbers.not_mem_chars (by decide)) (Numbers.not_mem_chars (by decide))
    simp [QualifierMarked, isSnapshot, text, chars, toRelease, isSuffixOf_snapshotMarker_append,
      hstamp]

/-- Three numbers have no qualifier to bring the marker back. -/
theorem isSnapshot_strictText (v : Version) : isSnapshot v.strictText = false := by
  have hrelease : (ofNumbers v.major v.minor v.patch).toRelease.text = v.strictText :=
    text_ofNumbers v
  rw [← hrelease, ← Bool.not_eq_true, isSnapshot_text_toRelease]
  rintro ⟨qualifier, hqualifier, -⟩
  cases hqualifier

/-- The text of a version under development ends with the marker. -/
theorem isSnapshot_text {v : Version} (hsnapshot : v.snapshot = true) :
    isSnapshot v.text = true := by
  have hmarker : snapshotMarker.toList <:+ v.chars := by
    rw [chars, if_pos hsnapshot]
    exact (List.suffix_cons '-' _).trans (List.suffix_append _ _)
  rw [isSnapshot, text, String.toList_ofList, List.isSuffixOf_iff_suffix.2 hmarker, Bool.true_or]

end Version

end Versioning
