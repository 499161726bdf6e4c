import Versioning.Version

/-!
# Reading what was written

Numbers are written in decimal with points between them, and are read back as they were
(`Numbers.parse?_chars`). They hold neither blanks nor hyphens nor the marker, so nothing but
the marker can be split off behind them: a version without a qualifier is read back as it
was (`Version.parse?_text`). A strict text has three numbers, each without superfluous zeros
(`Version.isStrict_strictText`).
-/

namespace Versioning

/-- Without blanks there is nothing to drop. -/
theorem Text.trimList_eq_self {text : List Char} (h : ∀ c ∈ text, isBlankChar c = false) :
    trimList text = text := by
  have hkept {l : List Char} (hl : ∀ c ∈ l, isBlankChar c = false) :
      l.dropWhile isBlankChar = l := by
    cases l with
    | nil => rfl
    | cons c rest => rw [List.dropWhile_cons, hl c List.mem_cons_self, if_neg Bool.false_ne_true]
  rw [trimList, trimEndList, hkept h, hkept fun c hc => h c (List.mem_reverse.1 hc),
    List.reverse_reverse]

namespace Numbers

/-- A number is written in digits only. -/
theorem isDigit_of_mem_digits {n : UInt64} {c : Char} (h : c ∈ digits n) : c.isDigit = true :=
  Nat.isDigit_of_mem_toDigits (by decide) (by decide) h

/-- A number in decimal: digits, with no zero in front of others. -/
structure IsNumeral (text : List Char) : Prop where
  nonempty : text ≠ []
  isDigit : ∀ c ∈ text, c.isDigit = true
  canonical : ∀ rest, text = '0' :: rest → rest = []

/-- Only zero begins with a zero. -/
theorem toDigits_ne_zero_cons {n : Nat} (hn : 0 < n) (rest : List Char) :
    Nat.toDigits 10 n ≠ '0' :: rest := by
  induction n using Nat.strongRecOn generalizing rest with
  | ind n ih =>
    by_cases hsmall : n < 10
    · have hdigit : ∀ d < 10, 0 < d → Nat.digitChar d ≠ '0' := by decide
      rw [Nat.toDigits_of_lt_base hsmall]
      exact fun h => hdigit n hsmall hn (List.cons.inj h).1
    · -- The first digit is that of the number without the last one.
      rw [Nat.toDigits_of_base_le (by decide) (Nat.le_of_not_lt hsmall)]
      cases htens : Nat.toDigits 10 (n / 10) with
      | nil => exact absurd htens Nat.toDigits_ne_nil
      | cons c digits =>
        intro h
        obtain ⟨rfl, -⟩ := List.cons.inj h
        exact ih (n / 10) (by omega) (by omega) digits htens

theorem isNumeral_digits (n : UInt64) : IsNumeral (digits n) where
  nonempty := Nat.toDigits_ne_nil
  isDigit _ := isDigit_of_mem_digits
  canonical rest h := by
    rcases Nat.eq_zero_or_pos n.toNat with hzero | hpos
    · rw [digits, hzero] at h
      exact (List.cons.inj h).2.symm
    · exact absurd h (toDigits_ne_zero_cons hpos rest)

/-- A number that is written is read back. -/
theorem parseOne?_digits (n : UInt64) : parseOne? (digits n) = some n := by
  have hplus : ∀ rest, digits n = '+' :: rest → False := by
    intro rest h
    cases isDigit_of_mem_digits (n := n) (c := '+') (by simp [h])
  have hdigits : ((digits n).isEmpty || !(digits n).all Char.isDigit) = false := by
    have hall : (digits n).all Char.isDigit = true :=
      List.all_eq_true.2 fun c => isDigit_of_mem_digits
    have hne : (digits n).isEmpty = false := List.isEmpty_eq_false_iff.2 Nat.toDigits_ne_nil
    rw [hall, hne]
    rfl
  have hvalue : Nat.ofDigitChars 10 (digits n) 0 = n.toNat := Nat.ofDigitChars_ten_toDigits
  rw [parseOne?.eq_2 _ hplus]
  dsimp only
  rw [hdigits, hvalue, if_neg Bool.false_ne_true, if_pos n.toNat_lt, UInt64.ofNat_toNat]

/-! ### Points -/

theorem splitPoints_of_not_mem {text : List Char} (h : '.' ∉ text) : splitPoints text = [text] := by
  induction text with
  | nil => rfl
  | cons c rest ih =>
    rw [List.mem_cons, not_or] at h
    rw [splitPoints, if_neg (Ne.symm h.1), ih h.2]

theorem splitPoints_append {part : List Char} (rest : List Char) (h : '.' ∉ part) :
    splitPoints (part ++ '.' :: rest) = part :: splitPoints rest := by
  induction part with
  | nil => rfl
  | cons c part ih =>
    rw [List.mem_cons, not_or] at h
    rw [List.cons_append, splitPoints, if_neg (Ne.symm h.1), ih h.2]

/-- Parts without points that are joined by points are found again. -/
theorem splitPoints_intercalate {parts : List (List Char)} (hne : parts ≠ [])
    (h : ∀ part ∈ parts, '.' ∉ part) : splitPoints (List.intercalate ['.'] parts) = parts := by
  induction parts with
  | nil => exact absurd rfl hne
  | cons part parts ih =>
    have hpart := h part List.mem_cons_self
    cases parts with
    | nil => rw [List.intercalate_singleton, splitPoints_of_not_mem hpart]
    | cons next parts =>
      rw [List.intercalate_cons_cons, List.append_assoc, List.singleton_append,
        splitPoints_append _ hpart, ih (List.cons_ne_nil _ _) fun p hp => h p (List.mem_cons_of_mem _ hp)]

theorem point_not_mem_digits (n : UInt64) : '.' ∉ digits n := by
  intro h
  cases isDigit_of_mem_digits h

/-- Numbers that are written are read back. -/
theorem parse?_chars (numbers : Numbers) : parse? numbers.chars = some numbers := by
  have hparts : splitPoints numbers.chars = numbers.toList.map digits := by
    refine splitPoints_intercalate (by cases numbers <;> simp [toList]) ?_
    simp only [List.mem_map, forall_exists_index, and_imp, forall_apply_eq_imp_iff₂]
    exact fun n _ => point_not_mem_digits n
  rw [parse?, hparts]
  cases numbers <;> simp [toList, parseOne?_digits, ofList?]

/-- The text of numbers holds digits and points only. -/
theorem isDigit_or_eq_of_mem_chars {numbers : Numbers} {c : Char} (h : c ∈ numbers.chars) :
    c.isDigit = true ∨ c = '.' := by
  have hmem : (∃ n, c ∈ digits n) ∨ c = '.' := by
    cases numbers <;> simp only [chars, toList, List.map_cons, List.map_nil,
      List.intercalate_cons_cons, List.intercalate_singleton, List.mem_append,
      List.mem_singleton] at h <;> grind
  exact hmem.imp_left fun ⟨_, hc⟩ => isDigit_of_mem_digits hc

/-- The characters of numbers are from the point to the nine. -/
theorem toNat_of_mem_chars {numbers : Numbers} {c : Char} (h : c ∈ numbers.chars) :
    '.'.toNat ≤ c.toNat ∧ c.toNat ≤ '9'.toNat := by
  rcases isDigit_or_eq_of_mem_chars h with hdigit | rfl
  · obtain ⟨hzero, hnine⟩ := Char.isDigit_iff_toNat.1 hdigit
    exact ⟨Nat.le_trans (by decide) hzero, hnine⟩
  · decide

/-- Numbers hold no blanks. -/
theorem isBlankChar_of_mem_chars {numbers : Numbers} {c : Char} (h : c ∈ numbers.chars) :
    Text.isBlankChar c = false := by
  have hrange := toNat_of_mem_chars h
  grind [Text.isBlankChar]

end Numbers

namespace Version

/-- Numbers hold no hyphen, so there is no qualifier to split off. -/
theorem splitQualifier_numbers (numbers : Numbers) :
    splitQualifier numbers.chars = (numbers.chars, none) := by
  have hnone : numbers.chars.dropWhile (· != '-') = [] := by
    refine Text.dropWhile_eq_nil_iff.2 fun c hc => bne_iff_ne.2 ?_
    rintro rfl
    exact absurd (Numbers.toNat_of_mem_chars hc) (by decide)
  rw [splitQualifier, hnone]

/-- Without the marker at the end nothing is split off. -/
theorem splitMarker_numbers (numbers : Numbers) :
    splitMarker numbers.chars = (numbers.chars, false) := by
  rw [splitMarker]
  split
  · next rest hrest =>
    -- The marker has a letter, and numbers have none.
    have hS : 'S' ∈ numbers.chars := by
      rw [takeSuffix?_eq_some_iff.1 hrest]
      exact List.mem_append_right _ (by decide)
    exact absurd (Numbers.toNat_of_mem_chars hS) (by decide)
  · rfl

/-- The marker is split off with the hyphen before it. -/
theorem splitMarker_append (body : List Char) :
    splitMarker (body ++ '-' :: snapshotMarker.toList) = (body, true) := by
  have hmarker : takeSuffix? snapshotMarker.toList (body ++ '-' :: snapshotMarker.toList) =
      some (body ++ ['-']) :=
    takeSuffix?_eq_some_iff.2 (List.append_cons _ _ _)
  have hhyphen : takeSuffix? ['-'] (body ++ ['-']) = some body := takeSuffix?_eq_some_iff.2 rfl
  rw [splitMarker, hmarker]
  dsimp only
  rw [hhyphen, Option.getD_some]

/-- Neither numbers nor the marker hold blanks. -/
theorem trimList_chars {v : Version} (hqualifier : v.qualifier? = none) :
    Text.trimList v.chars = v.chars := by
  have hnumbers : ∀ c ∈ v.numbers.chars, Text.isBlankChar c = false :=
    fun _ => Numbers.isBlankChar_of_mem_chars
  have hmarker : ∀ c ∈ '-' :: snapshotMarker.toList, Text.isBlankChar c = false := by
    simp [snapshotMarker, Text.isBlankChar]
  refine Text.trimList_eq_self fun c hc => ?_
  rw [chars, hqualifier] at hc
  split at hc <;> grind

/-- The text of a version without a qualifier is read back as it was. -/
theorem parse?_text {v : Version} (hqualifier : v.qualifier? = none) :
    parse? v.text = some v := by
  obtain ⟨numbers, qualifier?, snapshot⟩ := v
  obtain rfl : qualifier? = none := hqualifier
  have hbody : splitMarker (chars ⟨numbers, none, snapshot⟩) = (numbers.chars, snapshot) := by
    cases snapshot with
    | false => simpa [chars] using splitMarker_numbers numbers
    | true => simpa [chars] using splitMarker_append numbers.chars
  rw [parse?, text, String.toList_ofList, trimList_chars rfl, hbody]
  dsimp only
  rw [splitQualifier_numbers]
  dsimp only
  rw [Numbers.parse?_chars, Option.map_some]

/-- The strict text is that of the version with three numbers. -/
theorem text_ofNumbers (v : Version) : (ofNumbers v.major v.minor v.patch).text = v.strictText := by
  simp [text, chars, ofNumbers, strictText]

/-- A text is strict if it is three numbers in decimal with points between them. -/
def IsStrict (text : String) : Prop :=
  ∃ major minor patch, Numbers.IsNumeral major ∧ Numbers.IsNumeral minor ∧
    Numbers.IsNumeral patch ∧ text.toList = major ++ '.' :: (minor ++ '.' :: patch)

theorem isStrict_strictText (v : Version) : IsStrict v.strictText :=
  ⟨_, _, _, Numbers.isNumeral_digits v.major, Numbers.isNumeral_digits v.minor,
    Numbers.isNumeral_digits v.patch, by simp [strictText, Numbers.chars, Numbers.toList]⟩

/-- The strict text is read back as three numbers. -/
theorem parse?_strictText (v : Version) :
    parse? v.strictText = some (ofNumbers v.major v.minor v.patch) := by
  rw [← text_ofNumbers]
  exact parse?_text rfl

end Version

end Versioning
