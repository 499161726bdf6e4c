import Mathlib.Data.List.Forall2
import Versioning.Proofs.Pattern.Layout
import Versioning.Rules

/-!
# Rules by their sources

Rules are compiled one by one, so compiled rules stand beside their sources
(`Rules.ofConfig_eq_ok_iff`). What a message announces is decided by the sources alone: some source of
the level describes it (`Rules.Describes`), a built-in or a configured one.
-/

namespace Versioning

/-- A list is mapped if each of its elements is. -/
theorem mapM_eq_ok_iff {α β ε : Type} {f : α → Except ε β} {items : List α} {values : List β} :
    items.mapM f = .ok values ↔ List.Forall₂ (fun a b => f a = .ok b) items values := by
  induction items generalizing values with
  | nil => cases values <;> simp [pure, Except.pure]
  | cons a items ih =>
    rw [List.mapM_cons]
    cases hfirst : f a with
    | error e => cases values <;> simp [bind, Except.bind, hfirst]
    | ok b =>
      cases hrest : items.mapM f with
      | error e => cases values <;> simp [bind, Except.bind, hfirst, ← ih, hrest]
      | ok rest => cases values <;> simp [bind, Except.bind, pure, Except.pure, hfirst, ← ih, hrest]

namespace Rules

variable {config : RulesConfig} {rules : Rules}

/-- Rules are compiled if the source of each is. -/
theorem ofConfig_eq_ok_iff : ofConfig config = .ok rules ↔
    compile false config.tagSource = .ok rules.tag ∧
      List.Forall₂ (fun source p => compile true source = .ok p)
        (defaultMajorPatterns ++ config.majorRules) rules.major ∧
      List.Forall₂ (fun source p => compile true source = .ok p)
        (defaultMinorPatterns ++ config.minorRules) rules.minor := by
  obtain ⟨tag, major, minor⟩ := rules
  simp only [← mapM_eq_ok_iff]
  rw [ofConfig]
  cases compile false config.tagSource with
  | error e => simp [bind, Except.bind]
  | ok tag' =>
    cases (defaultMajorPatterns ++ config.majorRules).mapM (compile true) with
    | error e => simp [bind, Except.bind]
    | ok major' =>
      cases (defaultMinorPatterns ++ config.minorRules).mapM (compile true) with
      | error e => simp [bind, Except.bind]
      | ok minor' => simp [bind, Except.bind, pure, Except.pure]

/-- The source of a rule describes a message. -/
def Describes (source message : String) : Prop :=
  ∃ p, compile true source = .ok p ∧ p.isMatch message = true

/-- Some compiled rule matches exactly if some source describes the message. -/
theorem any_isMatch_iff {sources : List String} {patterns : List Pattern} {message : String}
    (h : List.Forall₂ (fun source p => compile true source = .ok p) sources patterns) :
    (patterns.any fun p => p.isMatch message) = true ↔
      ∃ source ∈ sources, Describes source message := by
  induction h with
  | nil => simp
  | cons hfirst _ ih =>
    simp only [List.any_cons, Bool.or_eq_true, ih, List.exists_mem_cons_iff, Describes, hfirst,
      Except.ok.injEq, exists_eq_left']

variable (hrules : ofConfig config = .ok rules) {message : String}
include hrules

theorem isMajorUpdate_iff : rules.isMajorUpdate message = true ↔
    ∃ source ∈ defaultMajorPatterns ++ config.majorRules, Describes source message :=
  any_isMatch_iff (ofConfig_eq_ok_iff.1 hrules).2.1

theorem isMinorUpdate_iff : rules.isMinorUpdate message = true ↔
    ∃ source ∈ defaultMinorPatterns ++ config.minorRules, Describes source message :=
  any_isMatch_iff (ofConfig_eq_ok_iff.1 hrules).2.2

omit hrules

/-- A source that can be read is compiled to a pattern with the tree that its text describes. -/
theorem exists_compile {wholeMessage : Bool} {source : String} {node : Pattern.Node}
    (h : Pattern.Node.ofText? { Pattern.Flags.plain with multiLine := true, dotAll := wholeMessage }
      source = .ok node) :
    ∃ p, compile wholeMessage source = .ok p ∧ p.node = node := by
  obtain ⟨p, hp, hnode⟩ := Pattern.exists_ofText? h
  exact ⟨p, by rw [compile, hp]; rfl, hnode⟩

theorem describes_iff {source : String} {p : Pattern} (h : compile true source = .ok p) :
    Describes source message ↔ p.isMatch message = true := by
  simp [Describes, h]

end Rules

end Versioning
