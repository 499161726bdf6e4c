import Versioning.BumpLevel
import Versioning.Error
import Versioning.Pattern
import Versioning.Text.Blank
import Versioning.Toml.Fault
import Versioning.Toml.Value

/-!
# Version rules

Rules say what a commit means for the next version: which tags name a released
version, and which messages announce a major or a minor change. There are
built-in rules for dotted numbers and for conventional commit messages. A
configuration may replace the rule for tags and add further rules for messages.

* `Rules.ofConfig` compiles the rules, or says which pattern is at fault;
* `Rules.classify` is the level of one message, `Rules.maxBump` that of a history;
* `Rules.extractTag?` is the version that a tag names.
-/

namespace Versioning

/-- The tag names a released version: the whole line is one to three numbers with points. -/
def defaultTagPattern : String := "^([0-9]+(?:\\.[0-9]+(?:\\.[0-9]+)?)?)$"

/-- The messages of a major change: a type with an exclamation mark, or a breaking change. -/
def defaultMajorPatterns : List String :=
  ["^[a-zA-Z]+!(?:\\([a-zA-Z0-9_-]+\\))?: .*$", "^BREAKING CHANGE:.*$"]

/-- The messages of a minor change: a new feature. -/
def defaultMinorPatterns : List String :=
  ["^feat(?:\\([a-zA-Z0-9_-]+\\))?: .*$"]

/-- What a configuration says about rules. -/
structure RulesConfig where
  versionTag? : Option String
  majorRules : List String
  minorRules : List String
  deriving DecidableEq, Repr

namespace RulesConfig

/-- No rules but the built-in ones. -/
def none : RulesConfig :=
  ⟨.none, [], []⟩

/-- A value that stands for a text; a date stands for its own. -/
def textOf (v : Toml.Value) : Except Toml.Fault String :=
  match v with
  | .string text => .ok text
  | .datetime t => .ok t.text
  | _ => .error (.type "a string")

/-- A value that is a list of texts. -/
def textsOf (v : Toml.Value) : Except Toml.Fault (List String) :=
  match v with
  | .array items => items.mapM textOf
  | _ => .error (.type "a sequence")

/-- Reads the rules from a table; other keys do not count. -/
def ofTable (table : Toml.Table) : Except Toml.Fault RulesConfig := do
  return {
    versionTag? := ← (table.lookup "version_tag").mapM textOf
    majorRules := (← (table.lookup "major_rules").mapM textsOf).getD []
    minorRules := (← (table.lookup "minor_rules").mapM textsOf).getD [] }

/-- Reads the rules from the settings of a policy, if there are any. -/
def ofTable? (table? : Option Toml.Table) : Except ReleaseError RulesConfig :=
  match table? with
  | .none => .ok none
  | some table => (ofTable table).mapError fun fault => .config (.rules fault.message)

/-- The pattern for tags: the configured one unless it is blank. -/
def tagSource (config : RulesConfig) : String :=
  match config.versionTag? with
  | some tag => if Text.isBlank tag then defaultTagPattern else tag
  | .none => defaultTagPattern

end RulesConfig

/-- Compiled rules. -/
structure Rules where
  tag : Pattern
  major : List Pattern
  minor : List Pattern

namespace Rules

/-- Compiles a rule. Anchors match at every line; for messages, the dot matches line breaks. -/
def compile (wholeMessage : Bool) (source : String) : Except ReleaseError Pattern :=
  (Pattern.ofText?
      { Pattern.Flags.plain with multiLine := true, dotAll := wholeMessage } source).mapError
    fun fault => .config (.pattern source fault)

/-- Compiles the built-in rules together with the configured ones. -/
def ofConfig (config : RulesConfig) : Except ReleaseError Rules := do
  let tag ← compile false config.tagSource
  let major ← (defaultMajorPatterns ++ config.majorRules).mapM (compile true)
  let minor ← (defaultMinorPatterns ++ config.minorRules).mapM (compile true)
  return ⟨tag, major, minor⟩

/-- The built-in patterns can be compiled. -/
theorem ofConfig_none_isSome : (ofConfig .none).toOption.isSome := by
  decide +kernel

/-- The built-in rules. -/
def builtin : Rules :=
  (ofConfig .none).toOption.get ofConfig_none_isSome

theorem ofConfig_none : ofConfig .none = .ok builtin := by
  have hget : ∀ (compiled : Except ReleaseError Rules) (h : compiled.toOption.isSome),
      compiled = .ok (compiled.toOption.get h) := by
    rintro (e | rules) h
    · cases h
    · rfl
  exact hget _ ofConfig_none_isSome

/-- Whether a message announces a major change. -/
def isMajorUpdate (rules : Rules) (message : String) : Bool :=
  rules.major.any fun p => p.isMatch message

/-- Whether a message announces a minor change. -/
def isMinorUpdate (rules : Rules) (message : String) : Bool :=
  rules.minor.any fun p => p.isMatch message

/-- The level of a message. -/
def classify (rules : Rules) (message : String) : BumpLevel :=
  if rules.isMajorUpdate message then .major
  else if rules.isMinorUpdate message then .minor
  else .none

/-- The version that a tag names: what the first group of the pattern matched, or the whole match
    if that group took no part. -/
def extractTag? (rules : Rules) (label : String) : Option String :=
  rules.tag.firstGroup? label

/-- The level of some messages, when that of the messages before them was `level`: nothing is
    larger than a major change, so it ends the search. -/
def maxLevel (rules : Rules) (level : BumpLevel) : List String → BumpLevel
  | [] => level
  | message :: rest =>
    match rules.classify message with
    | .major => .major
    | .minor => rules.maxLevel .minor rest
    | _ => rules.maxLevel level rest

/-- The level of a history. When no message announces anything, it is a patch after a release and
    nothing otherwise. -/
def maxBump (rules : Rules) (messages : List String) (hasTag : Bool) : BumpLevel :=
  rules.maxLevel (if hasTag then .patch else .none) messages

/-- A line of the text that shows the rules. -/
def ruleLine (label : String) (p : Pattern) : String :=
  label ++ " : " ++ p.source ++ "\n"

/-- The text that shows the rules. -/
def text (rules : Rules) : String :=
  ruleLine "version tag" rules.tag ++ String.join (rules.major.map (ruleLine "major rule "))
    ++ String.join (rules.minor.map (ruleLine "minor rule "))

end Rules

end Versioning
