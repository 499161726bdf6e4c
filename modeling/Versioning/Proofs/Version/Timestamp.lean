import Versioning.Proofs.Pattern.Words
import Versioning.Proofs.Version.Marker

/-!
# Time stamps as a pattern

Time stamps are described by a pattern as well, `timestampNotation`. It is tied to both ends of the
text, so it matches the words of its language, and these are the texts that reading backwards
recognises (`isMatch_timestamp`).

The text of a version ends as one under development does for two reasons only: the version carries
the marker, or its qualifier ends that way itself. The hyphen of a time stamp may be the one in front
of the qualifier.
-/

namespace Versioning

open Pattern

/-! ### The pattern -/

/-- The pattern of the texts that end with a time stamp behind a single line. -/
def timestampNotation : String :=
  "^(.*)-(\\d{8}\\.\\d{6})-(\\d+)$"

/-- What stands between the anchors of the pattern. -/
def timestampParts : List Node :=
  let digit := Node.one (.property .digit)
  let date := Node.sequence (List.replicate 8 digit)
  let time := Node.sequence (List.replicate 6 digit)
  [.capture 1 (.star true (.one (.complement (.single '\n')))),
    .one (.single '-'),
    .capture 2 (.sequence [date, .one (.single '.'), time]),
    .one (.single '-'),
    .capture 3 (.plus true digit)]

theorem nodeOfText?_timestamp :
    Node.ofText? .plain timestampNotation =
      .ok (.sequence (.look .textStart :: (timestampParts ++ [.look .textEnd]))) := by
  decide +kernel

/-- The words of the pattern are the texts that end with a time stamp behind a single line. -/
theorem mem_language_timestamp {text : List Char} :
    text ∈ (Node.sequence timestampParts).language ↔
      ∃ start stamp, text = start ++ stamp ∧ IsTimestamp stamp ∧ '\n' ∉ start := by
  have hline (c : Char) : (CharSet.single '\n').complement.contains c = true ↔ c ≠ '\n' := by
    simp
  have hdigit (c : Char) :
      (CharSet.property .digit).contains c = Unicode.isDecimalDigit c := rfl
  simp only [timestampParts, Node.mem_language_sequence_cons, Node.mem_language_sequence_nil,
    Node.mem_language_capture, Node.mem_language_single, Node.mem_language_star_one,
    Node.mem_language_plus_one, Node.mem_language_sequence_replicate, exists_eq_left,
    exists_eq_right, List.append_nil, List.singleton_append, hline, hdigit]
  constructor
  · rintro ⟨start, hstart, _, ⟨_, ⟨_, ⟨date, hdate, _, ⟨time, htime, rfl⟩, rfl⟩,
      _, ⟨build, hbuild, rfl⟩, rfl⟩, rfl⟩, rfl⟩
    refine ⟨start, _, rfl, ?_, fun h => hstart _ h rfl⟩
    simpa using IsTimestamp.intro hdate.2 hdate.1 htime.2 htime.1 hbuild.2 hbuild.1
  · rintro ⟨start, _, rfl, @⟨date, time, build, hdate, hdate', htime, htime', hbuild, hbuild'⟩,
      hline⟩
    refine ⟨start, fun c hc h => hline (h ▸ hc), _, ⟨_, ⟨_, ⟨date, ⟨hdate', hdate⟩, _,
      ⟨time, ⟨htime', htime⟩, rfl⟩, rfl⟩, _, ⟨build, ⟨hbuild', hbuild⟩, rfl⟩, rfl⟩, rfl⟩, ?_⟩
    simp

/-- Searching for the pattern and reading backwards recognise the same texts. -/
theorem isMatch_timestamp {p : Pattern}
    (hnode : p.node = .sequence (.look .textStart :: (timestampParts ++ [.look .textEnd])))
    (text : String) : p.isMatch text = hasTimestamp text.toList := by
  rw [Bool.eq_iff_iff, isMatch_anchored_iff hnode rfl, mem_language_timestamp, hasTimestamp_iff]

/-! ### The text of a version -/

/-- A time stamp at the end of a qualifier is all of it, or stands behind another hyphen. -/
theorem hasTimestamp_hyphen_iff {qualifier : List Char} :
    hasTimestamp ('-' :: qualifier) = true ↔ ∃ front stamp, qualifier = front ++ stamp ∧
      IsTimestamp ('-' :: stamp) ∧ (front = [] ∨ ['-'] <:+ front ∧ '\n' ∉ front) := by
  rw [hasTimestamp_iff]
  constructor
  · rintro ⟨start, stamp, hsplit, hstamp, hline⟩
    cases start with
    | nil =>
      obtain rfl : '-' :: qualifier = stamp := hsplit
      exact ⟨[], qualifier, rfl, hstamp, .inl rfl⟩
    | cons c start =>
      obtain ⟨rfl, rfl⟩ := List.cons_eq_cons.1 hsplit
      cases hstamp with
      | intro hdate hdate' htime htime' hbuild hbuild' =>
        -- The hyphen of the time stamp ends what is in front of it.
        refine ⟨start ++ ['-'], _, by rw [List.append_assoc]; rfl,
          .intro hdate hdate' htime htime' hbuild hbuild', .inr ⟨List.suffix_append _ _, ?_⟩⟩
        simpa using fun h => hline (List.mem_cons_of_mem _ h)
  · rintro ⟨front, stamp, rfl, hstamp, rfl | ⟨⟨start, rfl⟩, hline⟩⟩
    · exact ⟨[], _, rfl, hstamp, List.not_mem_nil⟩
    · refine ⟨'-' :: start, _, by rw [List.append_assoc]; rfl, hstamp, ?_⟩
      simpa using hline

theorem isSnapshot_iff {text : String} :
    isSnapshot text = true ↔
      snapshotMarker.toList <:+ text.toList ∨ hasTimestamp text.toList = true := by
  rw [isSnapshot, Bool.or_eq_true, List.isSuffixOf_iff_suffix]

namespace Version

/-- A version is one under development because of its marker or because of its qualifier. -/
theorem isSnapshot_text_iff {v : Version} :
    isSnapshot v.text = true ↔ v.snapshot = true ∨ v.QualifierMarked := by
  cases hsnapshot : v.snapshot with
  | true => simp [isSnapshot_text hsnapshot]
  | false =>
    have hrelease : v.toRelease = v := by rw [toRelease, ← hsnapshot]
    rw [← isSnapshot_text_toRelease, hrelease]
    simp

theorem qualifierMarked_iff {v : Version} :
    v.QualifierMarked ↔ ∃ qualifier, v.qualifier? = some qualifier ∧
      (snapshotMarker.toList <:+ qualifier.toList ∨
        hasTimestamp ('-' :: qualifier.toList) = true) := by
  simp [QualifierMarked, isSnapshot_iff, snapshotMarker_suffix_hyphen_iff]

end Version

/-- Which texts carry the marker of a version under development: those that end with the word, and
    those that end with a time stamp behind a single line, as the pattern of time stamps says. The
    text of a version carries it exactly if the version does or if its qualifier ends that way;
    then the hyphen of a time stamp may be the one in front of the qualifier. -/
theorem isSnapshot_grammar :
    (∃ p, Pattern.ofText? .plain timestampNotation = .ok p ∧
      ∀ text, isSnapshot text =
        (snapshotMarker.toList.isSuffixOf text.toList || p.isMatch text)) ∧
    (∀ text, isSnapshot text = true ↔
      snapshotMarker.toList <:+ text.toList ∨
        ∃ start stamp, text.toList = start ++ stamp ∧ IsTimestamp stamp ∧ '\n' ∉ start) ∧
    ∀ v : Version, isSnapshot v.text = true ↔
      v.snapshot = true ∨ ∃ qualifier, v.qualifier? = some qualifier ∧
        (snapshotMarker.toList <:+ qualifier.toList ∨
          ∃ front stamp, qualifier.toList = front ++ stamp ∧ IsTimestamp ('-' :: stamp) ∧
            (front = [] ∨ ['-'] <:+ front ∧ '\n' ∉ front)) := by
  refine ⟨?_, fun text => ?_, fun v => ?_⟩
  · obtain ⟨p, hp, hnode⟩ := exists_ofText? nodeOfText?_timestamp
    exact ⟨p, hp, fun text => by rw [isMatch_timestamp hnode, isSnapshot]⟩
  · rw [isSnapshot_iff, hasTimestamp_iff]
  · simp only [Version.isSnapshot_text_iff, Version.qualifierMarked_iff, hasTimestamp_hyphen_iff]

example : isSnapshot "1.0-20240101.120000-3" = true := by decide

end Versioning
