import Mathlib.Order.Bounds.Defs
import Versioning.History

/-!
# The level of a history

The level of some messages is the highest that one of them announces, and at least a patch
after a release (`Rules.announced`). It is found by a search that ends early and never
compares levels (`Rules.maxBump_eq_announced`).

A level is known by the levels above it (`BumpLevel.eq_of_forall_le_iff`), and what is above the
level of some messages only depends on which messages there are (`Rules.announced_le_iff`). So it
neither depends on their order nor on how often they come, and more messages are no smaller change
(`Rules.maxBump_greatest`).
-/

namespace Versioning

namespace BumpLevel

theorem le_refl (level : BumpLevel) : level ≤ level :=
  Nat.le_refl _

theorem le_trans {a b c : BumpLevel} (hab : a ≤ b) (hbc : b ≤ c) : a ≤ c :=
  Nat.le_trans hab hbc

theorem le_antisymm {a b : BumpLevel} (hab : a ≤ b) (hba : b ≤ a) : a = b :=
  rank_injective (Nat.le_antisymm hab hba)

theorem lt_or_eq_of_le {a b : BumpLevel} (h : a ≤ b) : a < b ∨ a = b :=
  (Nat.lt_or_eq_of_le h).imp_right rank_injective

/-- A level is known by its bounds. -/
theorem eq_of_forall_le_iff {a b : BumpLevel} (h : ∀ bound, a ≤ bound ↔ b ≤ bound) : a = b :=
  le_antisymm ((h b).2 (le_refl b)) ((h a).1 (le_refl a))

/-- Nothing is larger than a major change. -/
theorem foldl_max_major (levels : List BumpLevel) : levels.foldl max .major = .major := by
  induction levels with
  | nil => rfl
  | cons level levels ih =>
    have hmax : max .major level = .major := by cases level <;> rfl
    rw [List.foldl_cons, hmax, ih]

/-- The larger level has the larger rank. -/
theorem rank_max (a b : BumpLevel) : (max a b).rank = Nat.max a.rank b.rank := by
  cases a <;> cases b <;> rfl

/-- A bound of two levels is one of the larger. -/
theorem max_le_iff {a b bound : BumpLevel} : max a b ≤ bound ↔ a ≤ bound ∧ b ≤ bound := by
  show (max a b).rank ≤ bound.rank ↔ a.rank ≤ bound.rank ∧ b.rank ≤ bound.rank
  rw [rank_max]
  exact Nat.max_le

/-- The smallest level is below every other. -/
theorem none_le (level : BumpLevel) : none ≤ level :=
  Nat.zero_le _

theorem foldl_max_le_iff {levels : List BumpLevel} {lowest bound : BumpLevel} :
    levels.foldl max lowest ≤ bound ↔ lowest ≤ bound ∧ ∀ level ∈ levels, level ≤ bound := by
  induction levels generalizing lowest with
  | nil => simp
  | cons level levels ih =>
    rw [List.foldl_cons, ih, max_le_iff, List.forall_mem_cons, and_assoc]

/-- The larger of two levels is one of them. -/
theorem max_eq_or (a b : BumpLevel) : max a b = a ∨ max a b = b := by
  rw [max]
  split
  · exact .inr rfl
  · exact .inl rfl

/-- The largest of some levels is one of them. -/
theorem foldl_max_mem (levels : List BumpLevel) (lowest : BumpLevel) :
    levels.foldl max lowest ∈ lowest :: levels := by
  induction levels generalizing lowest with
  | nil => exact List.mem_cons_self
  | cons level levels ih =>
    rw [List.foldl_cons]
    obtain hmax | hmem := List.mem_cons.1 (ih (max lowest level))
    · rw [hmax]
      obtain hlowest | hlevel := max_eq_or lowest level
      · rw [hlowest]
        exact List.mem_cons_self
      · rw [hlevel]
        exact List.mem_cons_of_mem _ List.mem_cons_self
    · exact List.mem_cons_of_mem _ (List.mem_cons_of_mem _ hmem)

end BumpLevel

namespace Rules

variable (rules : Rules)

/-- The highest level that a message announces, and at least a patch after a release. -/
def announced (released : Bool) (messages : List String) : BumpLevel :=
  (messages.map rules.classify).foldl BumpLevel.max (if released then .patch else .none)

/-- The announced level is the smallest that is as high as that of each message. -/
theorem announced_le_iff {released : Bool} {messages : List String} {bound : BumpLevel} :
    rules.announced released messages ≤ bound ↔
      (released = true → .patch ≤ bound) ∧ ∀ message ∈ messages, rules.classify message ≤ bound := by
  rw [announced, BumpLevel.foldl_max_le_iff, List.forall_mem_map]
  cases released <;> simp [BumpLevel.none_le]

/-- The announced level is that of a message, or the one of a history that announces nothing. -/
theorem exists_announced (released : Bool) (messages : List String) :
    rules.announced released messages = (if released then .patch else .none) ∨
      ∃ message ∈ messages, rules.classify message = rules.announced released messages :=
  (List.mem_cons.1 (BumpLevel.foldl_max_mem (messages.map rules.classify) _)).imp_right
    List.mem_map.1

/-- More messages do not announce less, nor does a release. -/
theorem announced_mono {released released' : Bool} {messages more : List String}
    (hreleased : released = true → released' = true) (hmessages : messages ⊆ more) :
    rules.announced released messages ≤ rules.announced released' more := by
  obtain ⟨hpatch, hmore⟩ := rules.announced_le_iff.1 (BumpLevel.le_refl _)
  exact rules.announced_le_iff.2
    ⟨fun h => hpatch (hreleased h), fun message h => hmore message (hmessages h)⟩

/-- The same messages announce the same, in whatever order and however often they come. -/
theorem announced_congr {released : Bool} {messages others : List String}
    (h : ∀ message, message ∈ others ↔ message ∈ messages) :
    rules.announced released others = rules.announced released messages :=
  BumpLevel.le_antisymm (rules.announced_mono id fun message => (h message).1)
    (rules.announced_mono id fun message => (h message).2)

/-- Two parts of a history announce the larger level of theirs. -/
theorem announced_append (released : Bool) (messages more : List String) :
    rules.announced released (messages ++ more) =
      (rules.announced released messages).max (rules.announced released more) := by
  refine BumpLevel.eq_of_forall_le_iff fun bound => ?_
  rw [BumpLevel.max_le_iff, announced_le_iff, announced_le_iff, announced_le_iff,
    List.forall_mem_append, and_and_and_comm, and_self]

/-- After a release, at least a patch is announced. -/
theorem announced_ne_none {messages : List String} : rules.announced true messages ≠ .none := by
  intro h
  have hle : rules.announced true messages ≤ .none := by
    rw [h]
    exact BumpLevel.none_le _
  exact absurd ((rules.announced_le_iff.1 hle).1 rfl) (by decide)

/-- No message announces a patch. -/
theorem classify_ne_patch (message : String) : rules.classify message ≠ .patch := by
  rw [classify]
  split
  · simp
  · split <;> simp

/-- Up to a minor change, the search keeps the larger level and goes on. -/
theorem maxLevel_eq_foldl {level : BumpLevel} (hlevel : level ≤ .minor) (messages : List String) :
    rules.maxLevel level messages = (messages.map rules.classify).foldl BumpLevel.max level := by
  induction messages generalizing level with
  | nil => rfl
  | cons message rest ih =>
    rw [maxLevel, List.map_cons, List.foldl_cons]
    cases hclass : rules.classify message with
    | major =>
      have hmax : BumpLevel.max level .major = .major := by cases level <;> rfl
      rw [hmax, BumpLevel.foldl_max_major]
    | minor => rw [BumpLevel.max, if_pos hlevel, ih (by decide)]
    | patch => exact absurd hclass (rules.classify_ne_patch message)
    | none =>
      have hmax : BumpLevel.max level .none = level := by cases level <;> rfl
      rw [hmax, ih hlevel]

/-- The search finds the announced level. -/
theorem maxBump_eq_announced (messages : List String) (hasTag : Bool) :
    rules.maxBump messages hasTag = rules.announced hasTag messages := by
  rw [maxBump, announced, maxLevel_eq_foldl]
  cases hasTag <;> decide

/-- The level of a history is the greatest of the levels of its messages and of the one that it has
    without any, which is a patch after a release and nothing otherwise. So it only depends on which
    messages there are and not on their order or number, it is the larger level of two parts of the
    history, and further messages or a release never make it smaller. -/
theorem maxBump_greatest (messages : List String) (hasTag : Bool) :
    IsGreatest {level | level = (if hasTag then .patch else .none) ∨
        ∃ message ∈ messages, rules.classify message = level} (rules.maxBump messages hasTag) ∧
    (∀ others, (∀ message, message ∈ others ↔ message ∈ messages) →
      rules.maxBump others hasTag = rules.maxBump messages hasTag) ∧
    (∀ more, rules.maxBump (messages ++ more) hasTag =
      (rules.maxBump messages hasTag).max (rules.maxBump more hasTag)) ∧
    (∀ more hasTag', messages ⊆ more → (hasTag = true → hasTag' = true) →
      rules.maxBump messages hasTag ≤ rules.maxBump more hasTag') ∧
    ∀ changes tag?, changes.Perm messages →
      CommitHistory.bumpLevel ⟨changes, tag?⟩ rules =
        CommitHistory.bumpLevel ⟨messages, tag?⟩ rules := by
  simp only [CommitHistory.bumpLevel, maxBump_eq_announced]
  refine ⟨⟨rules.exists_announced hasTag messages, ?_⟩, fun others => rules.announced_congr,
    rules.announced_append hasTag messages, fun more hasTag' hmore htag => ?_,
    fun changes tag? hperm => rules.announced_congr fun message => hperm.mem_iff⟩
  · obtain ⟨hpatch, hmessages⟩ := rules.announced_le_iff.1
      (BumpLevel.le_refl (rules.announced hasTag messages))
    rintro level (rfl | ⟨message, hmessage, rfl⟩)
    · cases hasTag with
      | true => exact hpatch rfl
      | false => exact BumpLevel.none_le _
    · exact hmessages message hmessage
  · exact rules.announced_mono htag hmore

/-- A feature that is listed twice, and in another place. -/
theorem maxBump_greatest_of_repetition :
    let messages := ["fix: a", "feat: b"]
    let others := ["feat: b", "fix: a", "feat: b"]
    (∀ message, message ∈ others ↔ message ∈ messages) ∧ messages ⊆ others ∧
      messages.reverse.Perm messages ∧
      builtin.maxBump others false = builtin.maxBump messages false ∧
      builtin.maxBump messages false ≤ builtin.maxBump others true ∧
      CommitHistory.bumpLevel ⟨messages.reverse, none⟩ builtin = .minor := by
  intro messages others
  have hsame : ∀ message, message ∈ others ↔ message ∈ messages := by
    simp [messages, others, or_comm]
  have hmore : messages ⊆ others := fun message => (hsame message).2
  have hperm : messages.reverse.Perm messages := List.reverse_perm messages
  have hminor : CommitHistory.bumpLevel ⟨messages, none⟩ builtin = .minor := by decide +kernel
  obtain ⟨-, hlevel, -, hle, horder⟩ := builtin.maxBump_greatest messages false
  exact ⟨hsame, hmore, hperm, hlevel others hsame, hle others true hmore nofun,
    (horder _ none hperm).trans hminor⟩

end Rules

end Versioning
