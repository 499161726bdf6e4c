import Versioning.Proofs.Pattern.Lines
import Versioning.Proofs.Rules.Level
import Versioning.Proofs.Rules.Sources

/-!
# What messages announce

The built-in rules look at the lines of a message. A line announces a major change by a type with an
exclamation mark, or by the footer of a breaking change (`BreakingStart`), and a minor change by the type
of a new feature (`FeatureStart`); the rest of the line and the other lines do not count.

The rules are patterns that go on behind such a beginning up to the end of the message. Their words
are the beginnings, and none of these has a line feed, so the rules recognise them line by line
(`Rules.builtin_lines`).
-/

namespace Versioning

open Pattern

/-- The characters of a scope: letters, digits, underscores and hyphens. -/
def isScopeChar (c : Char) : Bool :=
  c.isAlphanum || c == '_' || c == '-'

/-- A scope in parentheses, or none at all. -/
inductive IsScope : List Char → Prop
  | absent : IsScope []
  | named {name : List Char} : name ≠ [] → (∀ c ∈ name, isScopeChar c = true) →
    IsScope ('(' :: (name ++ [')']))

/-- How a line begins that announces a major change. -/
inductive BreakingStart : List Char → Prop
  | footer : BreakingStart "BREAKING CHANGE:".toList
  | typed {type scope : List Char} : type ≠ [] → (∀ c ∈ type, c.isAlpha = true) → IsScope scope →
    BreakingStart (type ++ '!' :: (scope ++ [':', ' ']))

/-- How a line begins that announces a minor change. -/
inductive FeatureStart : List Char → Prop
  | intro {scope : List Char} : IsScope scope →
    FeatureStart ("feat".toList ++ (scope ++ [':', ' ']))

/-! ### The patterns -/

/-- The characters of a text one after the other. -/
def literally (text : String) : List Node :=
  text.toList.map fun c => .one (.single c)

/-- The letters. -/
def letters : CharSet :=
  .union (.union .none (.range 'a' 'z')) (.range 'A' 'Z')

/-- The characters of a scope. -/
def scopeChars : CharSet :=
  .union (.union (.union letters (.range '0' '9')) (.single '_')) (.single '-')

/-- A scope, if there is one, and what follows it. -/
def scopeParts : List Node :=
  .optional true (.sequence (.one (.single '(') :: .plus true (.one scopeChars) :: literally ")")) ::
    literally ": "

theorem nodeOfText?_typed :
    Node.ofText? { Flags.plain with multiLine := true, dotAll := true }
        "^[a-zA-Z]+!(?:\\([a-zA-Z0-9_-]+\\))?: .*$" =
      .ok (opening (.plus true (.one letters) :: (literally "!" ++ scopeParts))) := by
  decide +kernel

theorem nodeOfText?_footer :
    Node.ofText? { Flags.plain with multiLine := true, dotAll := true } "^BREAKING CHANGE:.*$" =
      .ok (opening (literally "BREAKING CHANGE:")) := by
  decide +kernel

theorem nodeOfText?_feature :
    Node.ofText? { Flags.plain with multiLine := true, dotAll := true }
        "^feat(?:\\([a-zA-Z0-9_-]+\\))?: .*$" =
      .ok (opening (literally "feat" ++ scopeParts)) := by
  decide +kernel

theorem contains_letters (c : Char) : letters.contains c = c.isAlpha := by
  have hlower : (decide ('a' ≤ c) && decide (c ≤ 'z')) = c.isLower := rfl
  have hupper : (decide ('A' ≤ c) && decide (c ≤ 'Z')) = c.isUpper := (Bool.decide_and _ _).symm
  rw [letters, CharSet.contains_union, CharSet.contains_union, CharSet.contains_none,
    CharSet.contains_range, CharSet.contains_range, hlower, hupper, Bool.false_or]
  exact Bool.or_comm _ _

theorem contains_scopeChars (c : Char) : scopeChars.contains c = isScopeChar c := by
  simp [scopeChars, isScopeChar, contains_letters, Char.isAlphanum, Char.isDigit, Char.le_def,
    Bool.beq_eq_decide_eq]

/-! ### Their words -/

variable {word : List Char}

theorem mem_language_literally {text : String} :
    word ∈ (Node.sequence (literally text)).language ↔ word = text.toList := by
  rw [literally]
  induction text.toList generalizing word with
  | nil => exact Iff.rfl
  | cons c rest ih => simp [ih, eq_comm]

theorem mem_language_scopeParts : word ∈ (Node.sequence scopeParts).language ↔
    ∃ scope, IsScope scope ∧ word = scope ++ [':', ' '] := by
  simp only [scopeParts, Node.mem_language_sequence_cons, Node.mem_language_optional,
    Node.mem_language_single, Node.mem_language_plus_one, mem_language_literally,
    contains_scopeChars]
  constructor
  · rintro ⟨_, rfl | ⟨_, rfl, _, ⟨name, ⟨hne, hname⟩, _, rfl, rfl⟩, rfl⟩, _, rfl, rfl⟩
    · exact ⟨[], .absent, rfl⟩
    · exact ⟨_, .named hne hname, rfl⟩
  · rintro ⟨_, _ | ⟨hne, hname⟩, rfl⟩
    · exact ⟨[], .inl rfl, _, rfl, rfl⟩
    · exact ⟨_, .inr ⟨_, rfl, _, ⟨_, ⟨hne, hname⟩, _, rfl, rfl⟩, rfl⟩, _, rfl, rfl⟩

/-- The words of the patterns for major changes are the beginnings that announce one. -/
theorem breakingStart_iff : BreakingStart word ↔
    word ∈ (Node.sequence (.plus true (.one letters) :: (literally "!" ++ scopeParts))).language ∨
      word ∈ (Node.sequence (literally "BREAKING CHANGE:")).language := by
  simp only [Node.mem_language_sequence_cons, Node.mem_language_plus_one, contains_letters,
    Node.mem_language_sequence_append, mem_language_literally, mem_language_scopeParts]
  constructor
  · rintro (_ | ⟨hne, htype, hscope⟩)
    · exact .inr rfl
    · exact .inl ⟨_, ⟨hne, htype⟩, _, ⟨_, rfl, _, ⟨_, hscope, rfl⟩, rfl⟩, rfl⟩
  · rintro (⟨type, ⟨hne, htype⟩, _, ⟨_, rfl, _, ⟨scope, hscope, rfl⟩, rfl⟩, rfl⟩ | rfl)
    · exact .typed hne htype hscope
    · exact .footer

theorem featureStart_iff : FeatureStart word ↔
    word ∈ (Node.sequence (literally "feat" ++ scopeParts)).language := by
  simp only [Node.mem_language_sequence_append, mem_language_literally, mem_language_scopeParts]
  constructor
  · rintro ⟨hscope⟩
    exact ⟨_, rfl, _, ⟨_, hscope, rfl⟩, rfl⟩
  · rintro ⟨_, rfl, _, ⟨scope, hscope, rfl⟩, rfl⟩
    exact .intro hscope

/-! ### Single lines -/

theorem IsScope.single {scope : List Char} (h : IsScope scope) : '\n' ∉ scope := by
  cases h with
  | absent => exact List.not_mem_nil
  | named _ hname =>
    have hfeed : '\n' ∉ _ := fun hmem => absurd (hname '\n' hmem) (by decide)
    simp [hfeed]

theorem BreakingStart.single (h : BreakingStart word) : '\n' ∉ word := by
  cases h with
  | footer => decide
  | typed _ htype hscope =>
    have hfeed : '\n' ∉ _ := fun hmem => absurd (htype '\n' hmem) (by decide)
    simp [hfeed, hscope.single]

theorem FeatureStart.single (h : FeatureStart word) : '\n' ∉ word := by
  obtain ⟨hscope⟩ := h
  simp [hscope.single]

/-! ### The rules -/

/-- A source whose words are beginnings on one line describes the messages with a line that begins
    so. -/
theorem Rules.describes_opening_iff {source : String} {parts : List Node}
    (hnode : Node.ofText? { Flags.plain with multiLine := true, dotAll := true } source =
      .ok (opening parts))
    (hparts : (Node.sequence parts).unconditional = true)
    (hsingle : ∀ word ∈ (Node.sequence parts).language, '\n' ∉ word) (message : String) :
    Describes source message ↔ ∃ line ∈ message.toList.splitOn '\n',
      ∃ word ∈ (Node.sequence parts).language, word <+: line := by
  obtain ⟨p, hp, hnode⟩ := exists_compile hnode
  rw [describes_iff hp, isMatch_opening_iff hnode hparts hsingle]

namespace Rules

theorem isMajorUpdate_builtin_iff {message : String} : builtin.isMajorUpdate message = true ↔
    ∃ line ∈ message.toList.splitOn '\n', ∃ start, BreakingStart start ∧ start <+: line := by
  have htyped := describes_opening_iff nodeOfText?_typed rfl
    (fun word hword => (breakingStart_iff.2 (.inl hword)).single) message
  have hfooter := describes_opening_iff nodeOfText?_footer rfl
    (fun word hword => (breakingStart_iff.2 (.inr hword)).single) message
  rw [isMajorUpdate_iff ofConfig_none]
  simp only [RulesConfig.none, defaultMajorPatterns, List.append_nil, List.exists_mem_cons_iff,
    List.not_mem_nil, false_and, exists_false, or_false, htyped, hfooter, breakingStart_iff,
    or_and_right, exists_or, and_or_left]

theorem isMinorUpdate_builtin_iff {message : String} : builtin.isMinorUpdate message = true ↔
    ∃ line ∈ message.toList.splitOn '\n', ∃ start, FeatureStart start ∧ start <+: line := by
  have hfeature := describes_opening_iff nodeOfText?_feature rfl
    (fun word hword => (featureStart_iff.2 hword).single) message
  rw [isMinorUpdate_iff ofConfig_none]
  simp only [RulesConfig.none, defaultMinorPatterns, List.append_nil, List.exists_mem_cons_iff,
    List.not_mem_nil, false_and, exists_false, or_false, hfeature, featureStart_iff]

/-- The lines of two texts with a line feed between them are those of both. -/
theorem exists_mem_splitOn_append_iff {a b : String} {P : List Char → Prop} :
    (∃ line ∈ (a ++ "\n" ++ b).toList.splitOn '\n', P line) ↔
      (∃ line ∈ a.toList.splitOn '\n', P line) ∨ ∃ line ∈ b.toList.splitOn '\n', P line := by
  have hsplit : (a ++ "\n" ++ b).toList.splitOn '\n' =
      a.toList.splitOn '\n' ++ b.toList.splitOn '\n' := by
    rw [String.toList_append, String.toList_append, List.append_assoc]
    exact List.splitOn_append_cons_self _ _
  simp only [hsplit, List.mem_append, or_and_right, exists_or]

/-- The built-in rules recognise the lines that begin as an announcement does. So the level of two
    texts with a line feed between them is the larger one of theirs. -/
theorem builtin_lines :
    ofConfig .none = .ok builtin ∧
      (∀ message, builtin.isMajorUpdate message = true ↔
        ∃ line ∈ message.toList.splitOn '\n', ∃ start, BreakingStart start ∧ start <+: line) ∧
      (∀ message, builtin.isMinorUpdate message = true ↔
        ∃ line ∈ message.toList.splitOn '\n', ∃ start, FeatureStart start ∧ start <+: line) ∧
      ∀ a b, builtin.classify (a ++ "\n" ++ b) =
        (builtin.classify a).max (builtin.classify b) := by
  refine ⟨ofConfig_none, fun _ => isMajorUpdate_builtin_iff, fun _ => isMinorUpdate_builtin_iff,
    fun a b => ?_⟩
  have hmajor : builtin.isMajorUpdate (a ++ "\n" ++ b) =
      (builtin.isMajorUpdate a || builtin.isMajorUpdate b) := by
    rw [Bool.eq_iff_iff, Bool.or_eq_true]
    simp only [isMajorUpdate_builtin_iff, exists_mem_splitOn_append_iff]
  have hminor : builtin.isMinorUpdate (a ++ "\n" ++ b) =
      (builtin.isMinorUpdate a || builtin.isMinorUpdate b) := by
    rw [Bool.eq_iff_iff, Bool.or_eq_true]
    simp only [isMinorUpdate_builtin_iff, exists_mem_splitOn_append_iff]
  rw [classify, classify, classify, hmajor, hminor]
  cases builtin.isMajorUpdate a <;> cases builtin.isMajorUpdate b <;>
    cases builtin.isMinorUpdate a <;> cases builtin.isMinorUpdate b <;> rfl

example : builtin.classify "fix(core)!: y\nfeat(core): x" = .minor := by decide +kernel

end Rules

end Versioning
