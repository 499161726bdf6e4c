import Mathlib.Data.List.TakeWhile
import Versioning.Module
import Versioning.Text.Blank

/-!
# Ids and their texts

The text of an id has a colon between its two names. It can only be read again if the names can be
told apart in it (`ModuleId.Legible`), and every text that can be read is the text of exactly one
such id (`ModuleId.parse?_eq_some_iff`). Which texts these are can be seen without reading them:
they have a single colon, which is not at either end (`ModuleId.isSome_parse?_iff`).
-/

namespace Versioning

/-! ### A character that comes once -/

namespace Text

/-- A character that comes once stands between two parts of the text that do not have it. -/
theorem count_eq_one_iff {chars : List Char} {c : Char} :
    chars.count c = 1 ↔ ∃ before after, chars = before ++ c :: after ∧ c ∉ before ∧ c ∉ after := by
  constructor
  · intro hcount
    have hmem : c ∈ chars := List.count_pos_iff.1 (by omega)
    obtain ⟨before, after, rfl⟩ := List.append_of_mem hmem
    rw [List.count_append, List.count_cons_self] at hcount
    refine ⟨before, after, rfl, ?_, ?_⟩ <;> rw [← List.count_eq_zero] <;> omega
  · rintro ⟨before, after, rfl, hbefore, hafter⟩
    rw [List.count_append, List.count_cons_self, List.count_eq_zero.2 hbefore,
      List.count_eq_zero.2 hafter]

/-- It is not the first character if the part in front of it is not empty, -/
theorem head?_ne_iff {before after : List Char} {c : Char} (h : c ∉ before) :
    (before ++ c :: after).head? ≠ some c ↔ before ≠ [] := by
  cases before with
  | nil => simp
  | cons d before => simpa using Ne.symm (List.ne_of_not_mem_cons h)

/-- and not the last one if the part behind it is not empty. -/
theorem getLast?_ne_iff {before after : List Char} {c : Char} (h : c ∉ after) :
    (before ++ c :: after).getLast? ≠ some c ↔ after ≠ [] := by
  rw [← List.head?_reverse, List.reverse_append, List.reverse_cons, List.append_assoc,
    List.singleton_append, head?_ne_iff (mt List.mem_reverse.1 h), Ne, List.reverse_eq_nil_iff]

end Text

namespace ModuleId

variable {key : String} {id : ModuleId}

/-- The names of an id can be told apart in its text: neither of them is empty or has a colon. -/
structure Legible (id : ModuleId) : Prop where
  group_ne : id.group ≠ ""
  artifact_ne : id.artifact ≠ ""
  colon_group : ':' ∉ id.group.toList
  colon_artifact : ':' ∉ id.artifact.toList

theorem toList_text (id : ModuleId) :
    id.text.toList = id.group.toList ++ ':' :: id.artifact.toList := by
  simp [text]

/-! ### Reading -/

/-- An id with legible names is read from its text. -/
theorem Legible.parse?_text (h : id.Legible) : parse? id.text = some id := by
  have hgroup : id.group.toList ≠ [] := fun hnil => h.group_ne (String.toList_eq_nil_iff.1 hnil)
  have hartifact : id.artifact.toList ≠ [] :=
    fun hnil => h.artifact_ne (String.toList_eq_nil_iff.1 hnil)
  rw [parse?, toList_text, takeWhile_colon_append h.colon_group,
    dropWhile_colon_append h.colon_group]
  simp [hgroup, hartifact, h.colon_artifact]

/-- The characters around the first colon are those of the two names. -/
theorem text_and_legible_of_parse? (h : parse? key = some id) : id.text = key ∧ id.Legible := by
  unfold parse? at h
  dsimp only at h
  split at h
  · cases h
  · next c artifact hdrop =>
    split at h
    · cases h
    · next haccepted =>
      cases h
      obtain rfl : c = ':' := by simpa using Text.head_dropWhile hdrop
      have hsplit := List.takeWhile_append_dropWhile (p := (· != ':')) (l := key.toList)
      rw [hdrop] at hsplit
      have hcolon : ':' ∉ key.toList.takeWhile (· != ':') := fun hmem => by
        simpa using List.mem_takeWhile_imp hmem
      generalize key.toList.takeWhile (· != ':') = group at hsplit hcolon haccepted
      simp only [Bool.or_eq_true, List.isEmpty_iff, List.contains_iff_mem, not_or] at haccepted
      obtain ⟨⟨hgroup, hartifact⟩, hartifactColon⟩ := haccepted
      refine ⟨?_, by simpa using hgroup, by simpa using hartifact, by simpa using hcolon,
        by simpa using hartifactColon⟩
      rw [← String.toList_inj, toList_text, ← hsplit]
      simp

/-- What is read from a text is the legible id with this text. -/
theorem parse?_eq_some_iff : parse? key = some id ↔ id.text = key ∧ id.Legible := by
  constructor
  · exact text_and_legible_of_parse?
  · rintro ⟨rfl, h⟩
    exact h.parse?_text

/-- The text that was read as an id is the text of the id. -/
theorem text_of_parse? (h : parse? key = some id) : id.text = key :=
  (parse?_eq_some_iff.1 h).1

/-- An id that was read from a text can be read from its own. -/
theorem parse?_text (h : parse? key = some id) : parse? id.text = some id :=
  (parse?_eq_some_iff.1 h).2.parse?_text

/-- The ids that can be read from their texts are the legible ones. -/
theorem parse?_text_iff : parse? id.text = some id ↔ id.Legible := by
  rw [parse?_eq_some_iff, and_iff_right rfl]

/-- Legible ids are known by their texts. -/
theorem Legible.eq_of_text_eq {other : ModuleId} (h : id.Legible) (hother : other.Legible)
    (htext : id.text = other.text) : id = other :=
  Option.some.inj (h.parse?_text.symm.trans (htext ▸ hother.parse?_text))

/-! ### Texts that can be read -/

/-- A text can be read as an id if it has a single colon, which is neither the first nor the last
    character. -/
theorem isSome_parse?_iff : (parse? key).isSome = true ↔
    key.toList.count ':' = 1 ∧ key.toList.head? ≠ some ':' ∧ key.toList.getLast? ≠ some ':' := by
  simp only [Option.isSome_iff_exists, parse?_eq_some_iff, Text.count_eq_one_iff]
  constructor
  · rintro ⟨id, rfl, h⟩
    rw [toList_text, Text.head?_ne_iff h.colon_group, Text.getLast?_ne_iff h.colon_artifact]
    exact ⟨⟨_, _, rfl, h.colon_group, h.colon_artifact⟩, by simpa using h.group_ne,
      by simpa using h.artifact_ne⟩
  · rintro ⟨⟨group, artifact, hkey, hgroup, hartifact⟩, hfirst, hlast⟩
    rw [hkey, Text.head?_ne_iff hgroup] at hfirst
    rw [hkey, Text.getLast?_ne_iff hartifact] at hlast
    refine ⟨⟨String.ofList group, String.ofList artifact⟩, ?_, ?_⟩
    · rw [← String.toList_inj, toList_text, hkey, String.toList_ofList, String.toList_ofList]
    · exact ⟨by simpa using hfirst, by simpa using hlast, by simpa using hgroup,
        by simpa using hartifact⟩

end ModuleId

end Versioning
