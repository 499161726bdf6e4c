/-!
# Blank text

A character is *blank* when it has the White_Space property: the spaces, tabs
and line breaks of every script, but neither the zero-width space nor the
byte-order mark. Settings that hold nothing but blanks count as absent, and
surrounding blanks are dropped from versions and answers.

* `trimList_eq_nil_iff`: nothing is left exactly of blank text.
-/

namespace Versioning.Text

/-- The White_Space property. -/
def isBlankChar (c : Char) : Bool :=
  let code := c.toNat
  (9 ≤ code && code ≤ 13) || code == 0x20 || code == 0x85 || code == 0xA0 || code == 0x1680
    || (0x2000 ≤ code && code ≤ 0x200A) || code == 0x2028 || code == 0x2029 || code == 0x202F
    || code == 0x205F || code == 0x3000

/-- Drops the blanks at the end. -/
def trimEndList (text : List Char) : List Char :=
  (text.reverse.dropWhile isBlankChar).reverse

/-- Drops the blanks at both ends. -/
def trimList (text : List Char) : List Char :=
  trimEndList (text.dropWhile isBlankChar)

/-- The text without the blanks at its two ends. -/
def trim (text : String) : String :=
  String.ofList (trimList text.toList)

/-- Whether the text holds nothing but blanks. -/
def isBlank (text : String) : Bool :=
  text.toList.all isBlankChar

/-- Skipping leaves nothing exactly when all is skipped. -/
theorem dropWhile_eq_nil_iff {p : Char → Bool} {text : List Char} :
    text.dropWhile p = [] ↔ ∀ c ∈ text, p c = true := by
  induction text with
  | nil => simp
  | cons c rest ih => by_cases h : p c = true <;> simp [h, ih]

/-- What is left after skipping begins with a character that is not skipped. -/
theorem head_dropWhile {p : Char → Bool} {text rest : List Char} {c : Char}
    (h : text.dropWhile p = c :: rest) : p c = false := by
  induction text with
  | nil => simp at h
  | cons d text ih =>
    by_cases hd : p d = true
    · rw [List.dropWhile_cons, if_pos hd] at h
      exact ih h
    · rw [List.dropWhile_cons, if_neg hd] at h
      obtain ⟨rfl, -⟩ := List.cons.inj h
      simpa using hd

/-- Nothing is left of a text exactly when it holds nothing but blanks. -/
theorem trimList_eq_nil_iff {text : List Char} :
    trimList text = [] ↔ ∀ c ∈ text, isBlankChar c = true := by
  rw [← dropWhile_eq_nil_iff]
  constructor
  · intro h
    rw [trimList, trimEndList, List.reverse_eq_nil_iff, dropWhile_eq_nil_iff] at h
    cases ht : text.dropWhile isBlankChar with
    | nil => rfl
    | cons c rest =>
      have hc := h c (by simp [ht])
      rw [head_dropWhile ht] at hc
      cases hc
  · intro h
    simp [trimList, trimEndList, h]

end Versioning.Text
