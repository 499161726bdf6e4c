import Versioning.Proofs.Pattern.Lines
import Versioning.Proofs.Rules.Sources
import Versioning.Proofs.Version.Language

/-!
# The version that a tag names

Without a rule of its own for tags, a configuration leaves it at the built-in one: a tag names a version
on its first line that is nothing but one to three groups of digits with points between them
(`isDottedNumber`).

Such a line has neither blanks nor hyphens nor the marker, so nothing but numbers is read from it
(`Version.parse?_of_isDottedNumber`), group by group, and without a plus sign anywhere. It is a version
exactly if the value of each group is a word (`Version.exists_parse?_dottedNumber_iff`), and then these
values are its numbers (`Version.parse?_dottedNumber_iff`).
-/

namespace Versioning

open Pattern

/-- Digits, and at least one of them. -/
def isDigits (text : List Char) : Bool :=
  !text.isEmpty && text.all Char.isDigit

/-- One to three groups of digits with points between them. -/
def isDottedNumber (line : List Char) : Bool :=
  decide ((line.splitOn '.').length ≤ 3) && (line.splitOn '.').all isDigits

theorem isDigits_iff {text : List Char} :
    isDigits text = true ↔ text ≠ [] ∧ ∀ c ∈ text, c.isDigit = true := by
  simp [isDigits]

theorem not_mem_of_isDigits {text : List Char} (h : isDigits text = true) {c : Char}
    (hc : c.isDigit = false) : c ∉ text := by
  intro hmem
  rw [(isDigits_iff.1 h).2 c hmem] at hc
  cases hc

/-- Groups are found again in what they make up. -/
theorem isDottedNumber_iff {line : List Char} : isDottedNumber line = true ↔
    ∃ groups : List (List Char), groups ≠ [] ∧ groups.length ≤ 3 ∧
      (∀ group ∈ groups, isDigits group = true) ∧ line = List.intercalate ['.'] groups := by
  rw [isDottedNumber, Bool.and_eq_true, decide_eq_true_eq, List.all_eq_true]
  constructor
  · rintro ⟨hlength, hgroups⟩
    exact ⟨_, List.splitOn_ne_nil '.' line, hlength, hgroups, (List.intercalate_splitOn '.').symm⟩
  · rintro ⟨groups, hne, hlength, hgroups, rfl⟩
    have hpoint : ∀ group ∈ groups, '.' ∉ group :=
      fun group hgroup => not_mem_of_isDigits (hgroups group hgroup) (by decide)
    rw [List.splitOn_intercalate '.' hpoint hne]
    exact ⟨hlength, hgroups⟩

/-! ### The pattern -/

/-- A group of digits. -/
def digitGroup : Node :=
  .plus true (.one (.union .none (.range '0' '9')))

/-- A pattern behind a point, if there is one. -/
def pointed (a : Node) : Node :=
  .optional true (.seq (.one (.single '.')) a)

/-- One to three groups of digits with points between them. -/
def dottedNumber : Node :=
  .seq digitGroup (pointed (.seq digitGroup (pointed digitGroup)))

theorem nodeOfText?_defaultTagPattern :
    Node.ofText? { Flags.plain with multiLine := true, dotAll := false } defaultTagPattern =
      .ok (wholeLine dottedNumber) := by
  decide +kernel

variable {word : List Char}

theorem mem_language_digitGroup : word ∈ digitGroup.language ↔ isDigits word = true := by
  have hdigit (c : Char) : (CharSet.union .none (.range '0' '9')).contains c = c.isDigit := by
    simp [Char.isDigit, Char.le_def]
  simp only [digitGroup, Node.mem_language_plus_one, hdigit, isDigits_iff]

theorem mem_language_seq {a b : Node} : word ∈ (Node.seq a b).language ↔
    ∃ front ∈ a.language, ∃ back ∈ b.language, front ++ back = word :=
  Language.mem_mul

theorem mem_language_pointed {a : Node} : word ∈ (pointed a).language ↔
    word = [] ∨ ∃ rest ∈ a.language, word = '.' :: rest := by
  simp [pointed, mem_language_seq, eq_comm]

/-- The words of the pattern are one to three groups of digits with points between them. -/
theorem mem_language_dottedNumber :
    word ∈ dottedNumber.language ↔ isDottedNumber word = true := by
  simp only [dottedNumber, mem_language_seq, mem_language_digitGroup, mem_language_pointed]
  rw [isDottedNumber_iff]
  constructor
  · rintro ⟨major, hmajor, _, rfl | ⟨_, ⟨minor, hminor, _, rfl | ⟨patch, hpatch, rfl⟩, rfl⟩, rfl⟩, rfl⟩
    · exact ⟨[major], by simp, by simp, by simpa, by simp⟩
    · exact ⟨[major, minor], by simp, by simp, by simp [hmajor, hminor],
        by simp [List.intercalate_cons_cons]⟩
    · exact ⟨[major, minor, patch], by simp, by simp, by simp [hmajor, hminor, hpatch],
        by simp [List.intercalate_cons_cons]⟩
  · rintro ⟨_ | ⟨major, _ | ⟨minor, _ | ⟨patch, _ | ⟨more, rest⟩⟩⟩⟩, hne, hlength, hgroups, rfl⟩
    · exact absurd rfl hne
    · exact ⟨major, hgroups major (by simp), [], .inl rfl, by simp⟩
    · exact ⟨major, hgroups major (by simp), _,
        .inr ⟨_, ⟨minor, hgroups minor (by simp), [], .inl rfl, rfl⟩, rfl⟩,
        by simp [List.intercalate_cons_cons]⟩
    · exact ⟨major, hgroups major (by simp), _,
        .inr ⟨_, ⟨minor, hgroups minor (by simp), _,
          .inr ⟨patch, hgroups patch (by simp), rfl⟩, rfl⟩, rfl⟩,
        by simp [List.intercalate_cons_cons]⟩
    · rw [List.length_cons, List.length_cons, List.length_cons, List.length_cons] at hlength
      omega

/-! ### Reading the number -/

variable {line : List Char} {groups : List (List Char)}

theorem not_mem_of_isDottedNumber (h : isDottedNumber line = true) {c : Char}
    (hdigit : c.isDigit = false) (hpoint : c ≠ '.') : c ∉ line := by
  obtain ⟨groups, -, -, hgroups, rfl⟩ := isDottedNumber_iff.1 h
  intro hmem
  obtain rfl | ⟨group, hgroup, hc⟩ := Numbers.eq_or_exists_mem_of_mem_intercalate hmem
  · exact hpoint rfl
  · exact not_mem_of_isDigits (hgroups group hgroup) hdigit hc

/-- Such a line holds nothing but numbers. -/
theorem Version.parse?_of_isDottedNumber (h : isDottedNumber line = true) :
    Version.parse? (String.ofList line) = (Numbers.parse? line).map (⟨·, none, false⟩) := by
  have hblank : ∀ c ∈ line, Text.isBlankChar c = false := by
    intro c hc
    obtain ⟨groups, -, -, hgroups, rfl⟩ := isDottedNumber_iff.1 h
    obtain rfl | ⟨group, hgroup, hc⟩ := Numbers.eq_or_exists_mem_of_mem_intercalate hc
    · decide
    · have hdigit := Char.isDigit_iff_toNat.1 ((isDigits_iff.1 (hgroups group hgroup)).2 c hc)
      grind [Text.isBlankChar]
  have hmarker : ¬snapshotMarker.toList <:+ line := fun hsuffix =>
    not_mem_of_isDottedNumber h (c := 'S') (by decide) (by decide)
      (hsuffix.subset (by decide))
  have hhyphen : '-' ∉ line := not_mem_of_isDottedNumber h (by decide) (by decide)
  have hqualifier := splitQualifier_append hhyphen .nil
  rw [List.append_nil] at hqualifier
  rw [Version.parse?, String.toList_ofList, Text.trimList_eq_self hblank, splitMarker,
    takeSuffix?_eq_none_iff.2 hmarker]
  dsimp only
  rw [hqualifier]

namespace Numbers

theorem spellsOne_iff {group : List Char} (h : isDigits group = true) {n : UInt64} :
    SpellsOne group n ↔ Nat.ofDigitChars 10 group 0 = n.toNat := by
  obtain ⟨hne, hdigits⟩ := isDigits_iff.1 h
  constructor
  · rintro (hplain | _)
    · exact hplain.value
    · cases hdigits '+' List.mem_cons_self
  · exact fun hvalue => .plain ⟨hne, hdigits, hvalue⟩

/-- Groups of digits spell the words with their values. -/
theorem forall₂_spellsOne_iff (hgroups : ∀ group ∈ groups, isDigits group = true)
    {words : List UInt64} : List.Forall₂ SpellsOne groups words ↔
      words.map UInt64.toNat = groups.map (Nat.ofDigitChars 10 · 0) := by
  induction groups generalizing words with
  | nil => simp
  | cons group groups ih =>
    obtain ⟨hgroup, hrest⟩ := List.forall_mem_cons.1 hgroups
    cases words with
    | nil => simp
    | cons n words => simp [spellsOne_iff hgroup, ih hrest, eq_comm]

/-- Groups of digits are read as the numbers with their values. -/
theorem parse?_intercalate_eq_some_iff (hne : groups ≠ [])
    (hgroups : ∀ group ∈ groups, isDigits group = true) (numbers : Numbers) :
    parse? (List.intercalate ['.'] groups) = some numbers ↔
      numbers.toList.map UInt64.toNat = groups.map (Nat.ofDigitChars 10 · 0) := by
  have hpoint : ∀ group ∈ groups, '.' ∉ group :=
    fun group hgroup => not_mem_of_isDigits (hgroups group hgroup) (by decide)
  simp only [parse?, splitPoints_intercalate hne hpoint, Option.bind_eq_some_iff,
    mapM_parseOne?_eq_some_iff, ofList?_eq_some_iff, exists_eq_right,
    forall₂_spellsOne_iff hgroups]

/-- There are numbers with given values if these are one to three words. -/
theorem exists_map_toNat_eq_iff {values : List Nat} (hne : values ≠ []) (hlength : values.length ≤ 3) :
    (∃ numbers : Numbers, numbers.toList.map UInt64.toNat = values) ↔
      ∀ value ∈ values, value ≤ 2 ^ 64 - 1 := by
  constructor
  · rintro ⟨numbers, rfl⟩ value hvalue
    obtain ⟨n, -, rfl⟩ := List.mem_map.1 hvalue
    exact Nat.le_sub_one_of_lt n.toNat_lt
  · intro hsmall
    have hword {value : Nat} (hvalue : value ∈ values) : (UInt64.ofNat value).toNat = value :=
      UInt64.toNat_ofNat_of_lt (Nat.lt_of_le_sub_one (by decide) (hsmall value hvalue))
    obtain _ | ⟨major, _ | ⟨minor, _ | ⟨patch, _ | ⟨more, rest⟩⟩⟩⟩ := values
    · exact absurd rfl hne
    · exact ⟨.one (.ofNat major), by simp [toList, hword]⟩
    · exact ⟨.two (.ofNat major) (.ofNat minor), by simp [toList, hword]⟩
    · exact ⟨.three (.ofNat major) (.ofNat minor) (.ofNat patch), by simp [toList, hword]⟩
    · rw [List.length_cons, List.length_cons, List.length_cons, List.length_cons] at hlength
      omega

end Numbers

namespace Version

/-- What a dotted number is read as consists of the values of its groups. -/
theorem parse?_dottedNumber_iff (h : isDottedNumber line = true) (v : Version) :
    parse? (String.ofList line) = some v ↔
      v.numbers.toList.map UInt64.toNat = (line.splitOn '.').map (Nat.ofDigitChars 10 · 0) ∧
        v.qualifier? = none ∧ v.snapshot = false := by
  obtain ⟨groups, hne, -, hgroups, rfl⟩ := isDottedNumber_iff.1 h
  have hpoint : ∀ group ∈ groups, '.' ∉ group :=
    fun group hgroup => not_mem_of_isDigits (hgroups group hgroup) (by decide)
  rw [parse?_of_isDottedNumber h, List.splitOn_intercalate '.' hpoint hne,
    Option.map_eq_some_iff]
  simp only [Numbers.parse?_intercalate_eq_some_iff hne hgroups]
  constructor
  · rintro ⟨numbers, hnumbers, rfl⟩
    exact ⟨hnumbers, rfl, rfl⟩
  · obtain ⟨numbers, qualifier?, snapshot⟩ := v
    rintro ⟨hnumbers, rfl, rfl⟩
    exact ⟨numbers, hnumbers, rfl⟩

/-- A dotted number is a version exactly if each of its groups stands for a word. -/
theorem exists_parse?_dottedNumber_iff (h : isDottedNumber line = true) :
    (∃ v, parse? (String.ofList line) = some v) ↔
      ∀ group ∈ line.splitOn '.', Nat.ofDigitChars 10 group 0 ≤ 2 ^ 64 - 1 := by
  have hvalues : (line.splitOn '.').map (Nat.ofDigitChars 10 · 0) ≠ [] := by simp
  have hcount : ((line.splitOn '.').map (Nat.ofDigitChars 10 · 0)).length ≤ 3 := by
    rw [isDottedNumber, Bool.and_eq_true, decide_eq_true_eq] at h
    rw [List.length_map]
    exact h.1
  have hwords := Numbers.exists_map_toNat_eq_iff hvalues hcount
  rw [List.forall_mem_map] at hwords
  rw [← hwords]
  simp only [parse?_dottedNumber_iff h]
  constructor
  · rintro ⟨v, hv, -⟩
    exact ⟨v.numbers, hv⟩
  · rintro ⟨numbers, hnumbers⟩
    exact ⟨⟨numbers, none, false⟩, hnumbers, rfl, rfl⟩

end Version

/-! ### The built-in rule -/

namespace Rules

/-- Without a rule for tags, the first line counts that is a dotted number. -/
theorem extractTag?_eq_find? {config : RulesConfig} {rules : Rules}
    (hrules : ofConfig config = .ok rules)
    (hblank : ∀ tag ∈ config.versionTag?, Text.isBlank tag = true) (label : String) :
    rules.extractTag? label =
      ((label.toList.splitOn '\n').find? isDottedNumber).map String.ofList := by
  have hsource : config.tagSource = defaultTagPattern := by
    rw [RulesConfig.tagSource]
    split
    · next tag htag => rw [if_pos (hblank tag htag)]
    · rfl
  obtain ⟨p, hp, hnode⟩ := exists_compile nodeOfText?_defaultTagPattern
  have hcompiled := (ofConfig_eq_ok_iff.1 hrules).1
  rw [hsource, hp, Except.ok.injEq] at hcompiled
  rw [extractTag?, ← hcompiled]
  refine firstGroup?_wholeLine rfl rfl (fun word hword => ?_) hnode
    (fun line => mem_language_dottedNumber.symm) label
  exact not_mem_of_isDottedNumber (mem_language_dottedNumber.1 hword) (by decide) (by decide)

/-- Without a rule for tags, the version of a tag is its first line that is a dotted number and nothing
    else. The line is a version exactly if each group of its digits stands for a word, and then the
    version consists of these words. -/
theorem extractTag?_unconfigured {config : RulesConfig} {rules : Rules}
    (hrules : ofConfig config = .ok rules)
    (hblank : ∀ tag ∈ config.versionTag?, Text.isBlank tag = true) (label : String) :
    rules.extractTag? label =
        ((label.toList.splitOn '\n').find? isDottedNumber).map String.ofList ∧
      ∀ text, rules.extractTag? label = some text →
        ((∃ v, Version.parse? text = some v) ↔
          ∀ group ∈ text.toList.splitOn '.', Nat.ofDigitChars 10 group 0 ≤ 2 ^ 64 - 1) ∧
        ∀ v, Version.parse? text = some v →
          v.numbers.toList.map UInt64.toNat =
              (text.toList.splitOn '.').map (Nat.ofDigitChars 10 · 0) ∧
            v.qualifier? = none ∧ v.snapshot = false := by
  have htag := extractTag?_eq_find? hrules hblank label
  refine ⟨htag, fun text htext => ?_⟩
  rw [htag, Option.map_eq_some_iff] at htext
  obtain ⟨line, hline, rfl⟩ := htext
  have hdotted : isDottedNumber line = true := List.find?_some hline
  rw [String.toList_ofList]
  exact ⟨Version.exists_parse?_dottedNumber_iff hdotted,
    fun v hv => (Version.parse?_dottedNumber_iff hdotted v).1 hv⟩

/-- Blanks are no rule for tags. Only the second line of this tag is a dotted number to its end, and the
    zero in front counts for nothing. -/
theorem extractTag?_unconfigured_lines :
    ofConfig ⟨some " \t", [], []⟩ = .ok builtin ∧
      (∀ tag ∈ some " \t", Text.isBlank tag = true) ∧
      builtin.extractTag? "1.2-rc\n1.020\n3" = some "1.020" ∧
      ∃ v, Version.parse? "1.020" = some v ∧ v.numbers.toList.map UInt64.toNat = [1, 20] := by
  have hrules : ofConfig ⟨some " \t", [], []⟩ = .ok builtin := ofConfig_none
  have hblank : ∀ tag ∈ some " \t", Text.isBlank tag = true := by
    rintro _ ⟨⟩
    decide
  obtain ⟨htag, hparse⟩ := extractTag?_unconfigured hrules hblank "1.2-rc\n1.020\n3"
  have hline : builtin.extractTag? "1.2-rc\n1.020\n3" = some "1.020" := by
    rw [htag]
    decide
  obtain ⟨hexists, hvalues⟩ := hparse _ hline
  obtain ⟨v, hv⟩ := hexists.2 (by decide)
  refine ⟨hrules, hblank, hline, v, hv, ?_⟩
  rw [(hvalues v hv).1]
  decide

end Rules

end Versioning
