import Mathlib.Algebra.BigOperators.Group.List.Defs
import Mathlib.Computability.Language
import Versioning.Proofs.Pattern.Layout

/-!
# The words of a pattern

Apart from its conditions, a pattern is a regular expression: what it matches are the words of a
language, which is made from the languages of its parts by union, product and iteration
(`Node.language`). Wherever a pattern leads, it passes one of its words
(`Node.Leads.passes`), and a pattern without conditions leads past each of its words
(`exists_leads_of_passes`).

So a pattern between the two ends of a text matches just the texts in its language
(`Pattern.isMatch_anchored_iff`).
-/

open scoped Computability

namespace Versioning.Pattern

namespace Node

/-- The words that a pattern can match, if its conditions hold. -/
def language : Node → Language Char
  | empty => 1
  | one set => {word | ∃ c, word = [c] ∧ set.contains c = true}
  | look _ => 1
  | seq a b => a.language * b.language
  | alt a b => a.language + b.language
  | capture _ a => a.language
  | optional _ a => 1 + a.language
  | star _ a => a.language∗
  | plus _ a => a.language * a.language∗

/-- Whether there is no condition anywhere in a pattern. -/
def unconditional : Node → Bool
  | empty => true
  | one _ => true
  | look _ => false
  | seq a b => a.unconditional && b.unconditional
  | alt a b => a.unconditional && b.unconditional
  | capture _ a => a.unconditional
  | optional _ a => a.unconditional
  | star _ a => a.unconditional
  | plus _ a => a.unconditional

end Node

/-! ### Passing a word -/

/-- A word of the language stands in the text between two positions. The relation of a product is the
    composition of the relations, and that of an iteration the closure. -/
def Passes (text : Array Char) (language : Language Char) (start stop : Nat) : Prop :=
  ∃ word ∈ language, word <+: text.toList.drop start ∧ stop = start + word.length

variable {text : Array Char} {first second : Language Char} {start stop : Nat}

@[simp] theorem passes_one_iff : Passes text 1 start stop ↔ stop = start := by
  simp [Passes]

theorem passes_add_iff :
    Passes text (first + second) start stop ↔
      Passes text first start stop ∨ Passes text second start stop := by
  simp only [Passes, Language.mem_add, or_and_right, exists_or]

/-- A text continues with one word and then with another one. -/
theorem append_isPrefix_drop_iff {front back text : List Char} {position : Nat} :
    front ++ back <+: text.drop position ↔
      front <+: text.drop position ∧ back <+: text.drop (position + front.length) := by
  have hdrop {rest : List Char} (hrest : front ++ rest = text.drop position) :
      text.drop (position + front.length) = rest := by
    rw [← List.drop_drop, ← hrest, List.drop_left]
  constructor
  · intro h
    obtain ⟨rest, hrest⟩ := (List.prefix_append front back).trans h
    rw [← hrest, List.prefix_append_right_inj] at h
    exact ⟨⟨rest, hrest⟩, by rwa [hdrop hrest]⟩
  · rintro ⟨⟨rest, hrest⟩, hback⟩
    rwa [← hrest, List.prefix_append_right_inj, ← hdrop hrest]

theorem passes_mul_iff :
    Passes text (first * second) start stop ↔
      ∃ between, Passes text first start between ∧ Passes text second between stop := by
  constructor
  · rintro ⟨_, ⟨front, hfront, back, hback, rfl⟩, hstands, rfl⟩
    have hsplit := append_isPrefix_drop_iff.1 hstands
    exact ⟨_, ⟨front, hfront, hsplit.1, rfl⟩, back, hback, hsplit.2,
      by rw [List.length_append, Nat.add_assoc]⟩
  · rintro ⟨_, ⟨front, hfront, hstands, rfl⟩, back, hback, hstands', rfl⟩
    exact ⟨front ++ back, Language.append_mem_mul hfront hback,
      append_isPrefix_drop_iff.2 ⟨hstands, hstands'⟩,
      by rw [List.length_append, Nat.add_assoc]⟩

theorem passes_kstar_iff :
    Passes text first∗ start stop ↔ Relation.ReflTransGen (Passes text first) start stop := by
  constructor
  · rintro ⟨_, ⟨words, rfl, hwords⟩, hstands, rfl⟩
    induction words generalizing start with
    | nil => exact .refl
    | cons word words ih =>
      rw [List.forall_mem_cons] at hwords
      have hsplit := append_isPrefix_drop_iff.1 hstands
      have hrest := ih hwords.2 hsplit.2
      rw [List.flatten_cons, List.length_append, ← Nat.add_assoc]
      exact .head ⟨word, hwords.1, hsplit.1, rfl⟩ hrest
  · intro h
    induction h using Relation.ReflTransGen.head_induction_on with
    | refl => exact ⟨[], Language.nil_mem_kstar _, List.nil_prefix, rfl⟩
    | head hfirst _ hrest =>
      obtain ⟨word, hword, hpasses⟩ := passes_mul_iff.2 ⟨_, hfirst, hrest⟩
      exact ⟨word, (mul_kstar_le_kstar : first * first∗ ≤ first∗) hword, hpasses⟩

/-! ### The words that a pattern passes -/

/-- A single character of a set is a word of one character. -/
theorem passes_one_set_iff {set : CharSet} :
    Passes text (Node.one set).language start stop ↔
      ∃ c, text[start]? = some c ∧ set.contains c = true ∧ stop = start + 1 := by
  have hword (c : Char) : [c] <+: text.toList.drop start ↔ text[start]? = some c := by
    rw [← Array.getElem?_toList, ← List.head?_drop]
    cases text.toList.drop start <;> simp [eq_comm]
  constructor
  · rintro ⟨_, ⟨c, rfl, hset⟩, hstands, rfl⟩
    exact ⟨c, (hword c).1 hstands, hset, rfl⟩
  · rintro ⟨c, hc, hset, rfl⟩
    exact ⟨[c], ⟨c, rfl, hset⟩, (hword c).2 hc, rfl⟩

/-- Wherever a pattern leads, it passes one of its words. -/
theorem Node.Leads.passes {a : Node} {s s' : Spot} (h : a.Leads text s s') :
    Passes text a.language s.position s'.position := by
  induction a generalizing s s' with
  | empty =>
    cases h
    exact passes_one_iff.2 rfl
  | one set =>
    obtain ⟨c, hc, hset, rfl⟩ := h
    exact passes_one_set_iff.2 ⟨c, hc, hset, rfl⟩
  | look condition =>
    obtain ⟨-, rfl⟩ := h
    exact passes_one_iff.2 rfl
  | seq a b iha ihb =>
    obtain ⟨between, ha, hb⟩ := h
    exact passes_mul_iff.2 ⟨_, iha ha, ihb hb⟩
  | alt a b iha ihb => exact passes_add_iff.2 (h.imp iha ihb)
  | capture n a ih =>
    obtain ⟨inner, ha, rfl⟩ := h
    exact @ih (s.note (2 * n)) inner ha
  | optional greedy a ih =>
    cases h with
    | refl => exact passes_add_iff.2 (.inl (passes_one_iff.2 rfl))
    | single ha => exact passes_add_iff.2 (.inr (ih ha))
  | star greedy a ih =>
    exact passes_kstar_iff.2 (Relation.ReflTransGen.lift Spot.position (fun _ _ => ih) _ _ h)
  | plus greedy a ih =>
    obtain ⟨between, ha, hrest⟩ := Relation.TransGen.head'_iff.1 h
    exact passes_mul_iff.2 ⟨_, ih ha, passes_kstar_iff.2
      (Relation.ReflTransGen.lift Spot.position (fun _ _ => ih) _ _ hrest)⟩

/-- Rounds past one word each lead past several words. -/
theorem exists_rounds_of_passes {a : Node} {s : Spot} {stop : Nat}
    (hround : ∀ {s : Spot} {stop : Nat}, Passes text a.language s.position stop →
      ∃ s', s'.position = stop ∧ a.Leads text s s')
    (h : Passes text a.language∗ s.position stop) :
    ∃ s', s'.position = stop ∧ Relation.ReflTransGen (a.Leads text) s s' := by
  rw [passes_kstar_iff] at h
  induction h with
  | refl => exact ⟨s, rfl, .refl⟩
  | tail _ hlast ih =>
    obtain ⟨between, rfl, hleads⟩ := ih
    obtain ⟨s', hstop, hleads'⟩ := hround hlast
    exact ⟨s', hstop, hleads.tail hleads'⟩

/-- A pattern without conditions leads past each of its words. -/
theorem exists_leads_of_passes {a : Node} {s : Spot} {stop : Nat} (ha : a.unconditional = true)
    (h : Passes text a.language s.position stop) :
    ∃ s', s'.position = stop ∧ a.Leads text s s' := by
  induction a generalizing s stop with
  | empty => exact ⟨s, (passes_one_iff.1 h).symm, rfl⟩
  | one set =>
    obtain ⟨c, hc, hset, rfl⟩ := passes_one_set_iff.1 h
    exact ⟨_, rfl, c, hc, hset, rfl⟩
  | look condition => cases ha
  | seq a b iha ihb =>
    rw [Node.unconditional, Bool.and_eq_true] at ha
    obtain ⟨_, hfirst, hsecond⟩ := passes_mul_iff.1 h
    obtain ⟨between, rfl, hleads⟩ := iha ha.1 hfirst
    obtain ⟨s', hstop, hleads'⟩ := ihb ha.2 hsecond
    exact ⟨s', hstop, between, hleads, hleads'⟩
  | alt a b iha ihb =>
    rw [Node.unconditional, Bool.and_eq_true] at ha
    obtain h | h := passes_add_iff.1 h
    · exact (iha ha.1 h).imp fun _ => And.imp_right .inl
    · exact (ihb ha.2 h).imp fun _ => And.imp_right .inr
  | capture n a ih =>
    obtain ⟨inner, hstop, hleads⟩ := ih (s := s.note (2 * n)) ha h
    exact ⟨inner.note (2 * n + 1), hstop, inner, hleads, rfl⟩
  | optional greedy a ih =>
    obtain h | h := passes_add_iff.1 h
    · exact ⟨s, (passes_one_iff.1 h).symm, .refl⟩
    · exact (ih ha h).imp fun _ => And.imp_right .single
  | star greedy a ih => exact exists_rounds_of_passes (ih ha) h
  | plus greedy a ih =>
    obtain ⟨_, hfirst, hrest⟩ := passes_mul_iff.1 h
    obtain ⟨between, rfl, hleads⟩ := ih ha hfirst
    obtain ⟨s', hstop, hrounds⟩ := exists_rounds_of_passes (ih ha) hrest
    exact ⟨s', hstop, Relation.TransGen.head'_iff.2 ⟨between, hleads, hrounds⟩⟩

/-! ### Sequences -/

/-- A sequence leads through its first part to the others. -/
theorem Node.leads_sequence_cons {a : Node} {rest : List Node} {s s' : Spot} :
    (sequence (a :: rest)).Leads text s s' ↔
      ∃ between, a.Leads text s between ∧ (sequence rest).Leads text between s' := by
  cases rest with
  | nil =>
    constructor
    · exact fun h => ⟨s', h, rfl⟩
    · rintro ⟨_, h, rfl⟩
      exact h
  | cons b rest => exact Iff.rfl

theorem Node.leads_sequence_append {front back : List Node} {s s' : Spot} :
    (sequence (front ++ back)).Leads text s s' ↔
      ∃ between, (sequence front).Leads text s between ∧
        (sequence back).Leads text between s' := by
  induction front generalizing s with
  | nil =>
    constructor
    · exact fun h => ⟨s, rfl, h⟩
    · rintro ⟨_, rfl, h⟩
      exact h
  | cons a front ih =>
    simp only [List.cons_append, leads_sequence_cons, ih]
    constructor
    · rintro ⟨between, ha, between', hfront, hback⟩
      exact ⟨between', ⟨between, ha, hfront⟩, hback⟩
    · rintro ⟨between', ⟨between, ha, hfront⟩, hback⟩
      exact ⟨between, ha, between', hfront, hback⟩

theorem Node.language_sequence (nodes : List Node) :
    (sequence nodes).language = (nodes.map language).prod := by
  induction nodes with
  | nil => rfl
  | cons a nodes ih =>
    rw [List.map_cons, List.prod_cons, ← ih]
    cases nodes with
    | nil => exact (mul_one a.language).symm
    | cons b nodes => rfl

/-! ### Words of simple patterns -/

namespace Node

variable {set : CharSet} {word : List Char}

@[simp] theorem mem_language_sequence_nil : word ∈ (sequence []).language ↔ word = [] :=
  Iff.rfl

@[simp] theorem mem_language_sequence_cons {a : Node} {rest : List Node} :
    word ∈ (sequence (a :: rest)).language ↔
      ∃ front ∈ a.language, ∃ back ∈ (sequence rest).language, front ++ back = word := by
  rw [language_sequence, List.map_cons, List.prod_cons, ← language_sequence, Language.mem_mul]

theorem mem_language_sequence_append {front back : List Node} :
    word ∈ (sequence (front ++ back)).language ↔
      ∃ u ∈ (sequence front).language, ∃ v ∈ (sequence back).language, u ++ v = word := by
  rw [language_sequence, List.map_append, List.prod_append, ← language_sequence,
    ← language_sequence, Language.mem_mul]

@[simp] theorem mem_language_optional {greedy : Bool} {a : Node} :
    word ∈ (optional greedy a).language ↔ word = [] ∨ word ∈ a.language :=
  Iff.rfl

@[simp] theorem mem_language_capture {index : Nat} {a : Node} :
    word ∈ (capture index a).language ↔ word ∈ a.language :=
  Iff.rfl

@[simp] theorem mem_language_single {c : Char} :
    word ∈ (one (.single c)).language ↔ word = [c] := by
  constructor
  · rintro ⟨d, rfl, hset⟩
    simpa using hset
  · rintro rfl
    exact ⟨c, rfl, by simp⟩

theorem mem_language_one_pow {count : Nat} :
    word ∈ (one set).language ^ count ↔
      word.length = count ∧ ∀ c ∈ word, set.contains c = true := by
  induction count generalizing word with
  | zero => simp +contextual
  | succ count ih =>
    rw [pow_succ', Language.mem_mul]
    constructor
    · rintro ⟨_, ⟨c, rfl, hset⟩, rest, hrest, rfl⟩
      obtain ⟨rfl, hall⟩ := ih.1 hrest
      exact ⟨rfl, List.forall_mem_cons.2 ⟨hset, hall⟩⟩
    · rintro ⟨hlength, hall⟩
      obtain ⟨c, rest, rfl⟩ := List.exists_cons_of_length_eq_add_one hlength
      rw [List.forall_mem_cons] at hall
      exact ⟨[c], ⟨c, rfl, hall.1⟩, rest, ih.2 ⟨Nat.succ.inj hlength, hall.2⟩, rfl⟩

@[simp] theorem mem_language_sequence_replicate {count : Nat} :
    word ∈ (sequence (List.replicate count (one set))).language ↔
      word.length = count ∧ ∀ c ∈ word, set.contains c = true := by
  rw [language_sequence, List.map_replicate, List.prod_replicate, mem_language_one_pow]

@[simp] theorem mem_language_star_one {greedy : Bool} :
    word ∈ (star greedy (one set)).language ↔ ∀ c ∈ word, set.contains c = true := by
  rw [language, Language.kstar_eq_iSup_pow, Language.mem_iSup]
  simp [mem_language_one_pow]

@[simp] theorem mem_language_plus_one {greedy : Bool} :
    word ∈ (plus greedy (one set)).language ↔ word ≠ [] ∧ ∀ c ∈ word, set.contains c = true := by
  rw [language, Language.kstar_eq_iSup_pow, Language.mul_iSup, Language.mem_iSup]
  simp only [← pow_succ', mem_language_one_pow]
  constructor
  · rintro ⟨count, hlength, hall⟩
    exact ⟨List.ne_nil_of_length_eq_add_one hlength, hall⟩
  · rintro ⟨hne, hall⟩
    obtain ⟨c, rest, rfl⟩ := List.exists_cons_of_ne_nil hne
    exact ⟨rest.length, rfl, hall⟩

end Node

/-! ### Anchors -/

/-- The text starts at its first position only. -/
theorem holds_textStart_iff {position : Nat} {after : Option Char} (h : position ≤ text.size) :
    Look.textStart.holds (charBefore text position) after = true ↔ position = 0 := by
  rw [Look.holds, charBefore, Option.isNone_iff_eq_none]
  split
  · next hzero => simp [hzero]
  · next hpos =>
    rw [Array.getElem?_eq_none_iff]
    omega

/-- A pattern that is tied to both ends of the text matches just the texts in its language. -/
theorem isMatch_anchored_iff {p : Pattern} {parts : List Node}
    (hnode : p.node = Node.sequence (.look .textStart :: (parts ++ [.look .textEnd])))
    (hparts : (Node.sequence parts).unconditional = true) {text : String} :
    p.isMatch text = true ↔ text.toList ∈ (Node.sequence parts).language := by
  rw [isMatch_iff, hnode]
  simp only [Node.leads_sequence_cons, Node.leads_sequence_append]
  constructor
  · rintro ⟨position, hle, s', _, ⟨hstart, rfl⟩, stop, hleads, _, ⟨hstop, rfl⟩, rfl⟩
    obtain rfl := (holds_textStart_iff (by simpa using hle)).1 hstart
    obtain ⟨word, hword, hstands, hposition⟩ := hleads.passes
    -- The word is as long as the text, so it is the whole text.
    have hlength : text.toList.length ≤ word.length := by
      simpa [Look.holds, hposition] using hstop
    have hall : word = text.toList := hstands.eq_of_length_le (by simpa using hlength)
    rwa [← hall]
  · intro hword
    have hpasses : Passes text.toList.toArray (Node.sequence parts).language 0
        text.toList.length := ⟨_, hword, by simp, by simp⟩
    obtain ⟨s', hstop, hleads⟩ := exists_leads_of_passes (s := ⟨0, []⟩) hparts hpasses
    refine ⟨0, Nat.zero_le _, s', _, ⟨rfl, rfl⟩, s', hleads, s', ⟨?_, rfl⟩, rfl⟩
    simp [Look.holds, hstop]

end Versioning.Pattern
