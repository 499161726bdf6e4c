import Mathlib.Tactic.SplitIfs
import Versioning.Toml.Writer

/-!
# Strings that are read back

Whichever way a string is written, it is read back character by character
(`string_writtenString`), as long as no quote comes right after it.

Between double quotes every character is read from what stands for it, be this the character
itself or an escape (`Escape`). On several lines, quotes may stand for themselves as well, but
three of them would end the string; the text that is written there is *spelt* so that they
never come together (`Spelt`), which is what both readers of several lines ask for
(`ClosedByThree`).
-/

namespace Versioning.Toml

/-! ### Characters -/

/-- A character that is no control character stands for itself. -/
theorem isPlainChar_of_not_isControl {c : Char} (h : isControl c = false) (hbreak : c ≠ '\n') :
    isPlainChar c = true := by
  by_cases htab : c = '\t'
  · simp [isPlainChar, htab]
  · simp [isControl, htab, hbreak] at h
    simp [isPlainChar, htab, h]

/-- A carriage return is a control character. -/
theorem ne_return_of_not_isControl {c : Char} (h : isControl c = false) : c ≠ '\r' := by
  rintro rfl
  cases h

theorem lt_of_isControl {c : Char} (h : isControl c = true) : c.toNat < 128 := by
  simp [isControl] at h
  omega

/-- Four digits tell any of the first characters, among which all control characters are. -/
theorem exists_fourHexDigits {n : Nat} (hn : n < 128) : ∃ a b c d,
    fourHexDigits n = [a, b, c, d] ∧ hexChar? [a, b, c, d] = some (Char.ofNat n) := by
  -- There are few enough of them to look at each.
  have hlength : ∀ n < 128, (fourHexDigits n).length = 4 := by decide +kernel
  have hvalue : ∀ n < 128, hexChar? (fourHexDigits n) = some (Char.ofNat n) := by decide +kernel
  match hdigits : fourHexDigits n, hlength n hn with
  | [a, b, c, d], _ => exact ⟨a, b, c, d, rfl, hdigits ▸ hvalue n hn⟩

/-- What stands for a character between double quotes: a letter or digits after a backslash, or the
    character itself. -/
inductive Escape (c : Char) : List Char → Prop where
  | letter {l : Char} (h : escapedChar? l = some c) : Escape c ['\\', l]
  | code {x y z w : Char} (h : hexChar? [x, y, z, w] = some c) : Escape c ['\\', 'u', x, y, z, w]
  | itself (h : isPlainChar c = true) (hquote : c ≠ '"') (hbackslash : c ≠ '\\') (hbreak : c ≠ '\n')
      (hreturn : c ≠ '\r') : Escape c [c]

theorem escape_escapedChar (c : Char) : Escape c (escapedChar c) := by
  rw [escapedChar]
  -- First the letters, each of which stands for the character that it replaces.
  split_ifs with hb ht hn hf hr hq hs hc
  · rw [hb]; exact .letter rfl
  · rw [ht]; exact .letter rfl
  · rw [hn]; exact .letter rfl
  · rw [hf]; exact .letter rfl
  · rw [hr]; exact .letter rfl
  · rw [hq]; exact .letter rfl
  · rw [hs]; exact .letter rfl
  · obtain ⟨x, y, z, w, hdigits, hvalue⟩ := exists_fourHexDigits (lt_of_isControl hc)
    rw [hdigits]
    exact .code (hvalue.trans (congrArg some (Char.ofNat_toNat c)))
  · exact .itself (isPlainChar_of_not_isControl (by simpa using hc) hn) hq hs hn hr

/-! ### One line -/

/-- What stands for a character is read as this character. -/
theorem basicString_escape {c : Char} {written : List Char} (h : Escape c written)
    (rest : List Char) : basicString (written ++ rest) = (basicString rest).cons c := by
  cases h with
  | letter h =>
    unfold escapedChar? at h
    split at h <;> cases h <;> rfl
  | code h => simp [basicString, h]
  | itself h hquote hbackslash _ _ => simp [basicString, h, hbackslash]

theorem writtenAs_basic_append (text rest : List Char) :
    writtenAs .basic text ++ rest = '"' :: (text.flatMap escapedChar ++ '"' :: rest) := by
  simp [writtenAs, Style.delimiter]

theorem writtenAs_literal_append (text rest : List Char) :
    writtenAs .literal text ++ rest = '\'' :: (text ++ '\'' :: rest) := by
  simp [writtenAs, Style.delimiter]

/-- A text is read back from its characters between double quotes. -/
theorem basicString_flatMap (text rest : List Char) :
    basicString (text.flatMap escapedChar ++ '"' :: rest) = .ok (text, rest) := by
  induction text with
  | nil => simp [basicString]
  | cons c text ih =>
    rw [List.flatMap_cons, List.append_assoc, basicString_escape (escape_escapedChar c), ih]
    rfl

/-- A text may stand between single quotes if it has none, and no line breaks or control
    characters. -/
theorem literalString_append {text : List Char} (rest : List Char)
    (h : ∀ c ∈ text, isPlainChar c = true ∧ c ≠ '\'') :
    literalString (text ++ '\'' :: rest) = .ok (text, rest) := by
  induction text with
  | nil => simp [literalString]
  | cons c text ih =>
    obtain ⟨⟨hplain, hquote⟩, htext⟩ := List.forall_mem_cons.1 h
    rw [List.cons_append, literalString, if_pos hplain, ih htext]
    · rfl
    · exact hquote

/-! ### Several lines -/

theorem multilineBasic_escape {c : Char} {written : List Char} (h : Escape c written)
    (rest : List Char) :
    multilineBasic .inText (written ++ rest) = (multilineBasic .inText rest).cons c := by
  cases h with
  | letter h =>
    unfold escapedChar? at h
    split at h <;> cases h <;> rfl
  | code h => simp [multilineBasic, h]
  | itself h hquote hbackslash hbreak hreturn =>
    simp [multilineBasic, h, hbackslash, hreturn, hquote]

/-- The reader takes one or two quotes for text, and three for the end; up to two more of them
    before the end are text. -/
structure ClosedByThree (quote : Char) (reader : List Char → Step (List Char)) : Prop where
  text {k : Nat} (hk : k ≤ 2) {rest : List Char} (h : rest.head? ≠ some quote) :
    reader (List.replicate k quote ++ rest) = (List.replicate k quote).foldr Step.cons (reader rest)
  close {k : Nat} (hk : k ≤ 2) {rest : List Char} (h : rest.head? ≠ some quote) :
    reader (List.replicate k quote ++ quote :: quote :: quote :: rest) =
      .ok (List.replicate k quote, rest)

theorem closedByThree_multilineBasic : ClosedByThree '"' (multilineBasic .inText) where
  text {k} hk {rest} h := by
    have hplain : isPlainChar '"' = true := rfl
    cases rest with
    | nil => match k, hk with
      | 0, _ | 1, _ | 2, _ => rfl
    | cons c rest =>
      have hc : c ≠ '"' := fun hc => h (congrArg some hc)
      match k, hk with
      | 0, _ => rfl
      | 1, _ | 2, _ => simp [multilineBasic, hc, hplain]
  close {k} hk {rest} h := by
    cases rest with
    | nil => match k, hk with
      | 0, _ | 1, _ | 2, _ => rfl
    | cons c rest =>
      have hc : c ≠ '"' := fun hc => h (congrArg some hc)
      match k, hk with
      | 0, _ | 1, _ | 2, _ => simp [multilineBasic, hc]

theorem closedByThree_multilineLiteral : ClosedByThree '\'' multilineLiteral where
  text {k} hk {rest} h := by
    have hplain : isPlainChar '\'' = true := rfl
    cases rest with
    | nil => match k, hk with
      | 0, _ | 1, _ | 2, _ => rfl
    | cons c rest =>
      have hc : c ≠ '\'' := fun hc => h (congrArg some hc)
      match k, hk with
      | 0, _ => rfl
      | 1, _ | 2, _ => simp [multilineLiteral, hc, hplain]
  close {k} hk {rest} h := by
    cases rest with
    | nil => match k, hk with
      | 0, _ | 1, _ | 2, _ => rfl
    | cons c rest =>
      have hc : c ≠ '\'' := fun hc => h (congrArg some hc)
      match k, hk with
      | 0, _ | 1, _ | 2, _ => simp [multilineLiteral, hc]

/-- Text as it is written for a reader, with `k` quotes before it: quotes stand for themselves as
    long as there are no three together, and each other character for what is read as it. -/
inductive Spelt (quote : Char) (reader : List Char → Step (List Char)) :
    (k : Nat) → (text written : List Char) → Prop where
  | nil {k : Nat} : Spelt quote reader k [] []
  | quote {k : Nat} (hk : k < 2) {text written : List Char}
      (h : Spelt quote reader (k + 1) text written) :
      Spelt quote reader k (quote :: text) (quote :: written)
  | char {k : Nat} {c : Char} (first : Char) (others : List Char) {text written : List Char}
      (hfirst : first ≠ quote)
      (hread : ∀ rest, reader (first :: others ++ rest) = (reader rest).cons c)
      (h : Spelt quote reader 0 text written) :
      Spelt quote reader k (c :: text) (first :: others ++ written)

variable {quote : Char} {reader : List Char → Step (List Char)} {text written rest : List Char}

/-- Characters put before a piece that was read are read, too. -/
theorem Step.foldr_cons_ok (front text rest : List Char) :
    front.foldr Step.cons (.ok (text, rest)) = .ok (front ++ text, rest) := by
  induction front with
  | nil => rfl
  | cons c front ih =>
    rw [List.foldr_cons, ih]
    rfl

/-- Text that is spelt for a reader is read back up to the closing quotes. -/
theorem Spelt.read (hreader : ClosedByThree quote reader) (hrest : rest.head? ≠ some quote)
    {k : Nat} (hk : k ≤ 2) (h : Spelt quote reader k text written) :
    reader (List.replicate k quote ++ (written ++ quote :: quote :: quote :: rest)) =
      .ok (List.replicate k quote ++ text, rest) := by
  induction h with
  | nil =>
    rw [List.append_nil]
    exact hreader.close hk hrest
  | quote hlt h ih =>
    -- One more quote has come before what is left.
    have hshift (tail : List Char) (k : Nat) :
        List.replicate (k + 1) quote ++ tail = List.replicate k quote ++ quote :: tail := by
      rw [List.replicate_succ', List.append_assoc, List.singleton_append]
    have hread := ih hlt
    rwa [hshift, hshift] at hread
  | @char k c first others text written hfirst hread h ih =>
    have hread' := ih (Nat.zero_le 2)
    rw [List.replicate_zero, List.nil_append] at hread'
    rw [hreader.text hk (by simpa using hfirst), List.append_assoc, hread, hread']
    exact Step.foldr_cons_ok _ _ _

/-- Text with escapes is spelt for the reader of text between double quotes. -/
theorem spelt_escapedLines {k : Nat} (hk : k ≤ 2) (text : List Char) :
    Spelt '"' (multilineBasic .inText) k text (escapedLines k text) := by
  induction text generalizing k with
  | nil => exact .nil
  | cons c text ih =>
    have hnext := ih (Nat.zero_le 2)
    rw [escapedLines]
    split_ifs with hquote hlt hbreak
    · subst hquote
      exact .quote hlt (ih hlt)
    · -- The third of three quotes is escaped, and the ones behind it are counted anew.
      subst hquote
      exact .char '\\' ['"'] (by decide) (multilineBasic_escape (.letter rfl)) hnext
    · subst hbreak
      exact .char '\n' [] (by decide) (fun rest => by simp [multilineBasic]) hnext
    · have h := escape_escapedChar c
      have hread := multilineBasic_escape h
      generalize escapedChar c = written at h hread
      cases h with
      | letter _ | code _ => exact .char '\\' _ (by decide) hread hnext
      | itself _ _ _ _ _ => exact .char c [] hquote hread hnext

theorem le_longestRun (quote : Char) (k : Nat) (text : List Char) :
    k ≤ longestRun quote k text := by
  induction text generalizing k with
  | nil => exact Nat.le_refl k
  | cons c text ih =>
    rw [longestRun]
    split
    · exact Nat.le_trans (Nat.le_succ k) (ih (k + 1))
    · exact Nat.le_max_left _ _

/-- Text without control characters is spelt as it is for the reader of text between single quotes,
    unless there are three single quotes together. -/
theorem spelt_self {k : Nat} {text : List Char} (hrun : longestRun '\'' k text ≤ 2)
    (hcontrol : ∀ c ∈ text, isControl c = false) : Spelt '\'' multilineLiteral k text text := by
  induction text generalizing k with
  | nil => exact .nil
  | cons c text ih =>
    obtain ⟨hc, htext⟩ := List.forall_mem_cons.1 hcontrol
    rw [longestRun] at hrun
    split_ifs at hrun with hquote
    · subst hquote
      exact .quote (Nat.le_trans (le_longestRun _ _ _) hrun) (ih hrun htext)
    · have hnext := ih (Nat.le_trans (Nat.le_max_right _ _) hrun) htext
      refine .char c [] hquote (fun rest => ?_) hnext
      by_cases hbreak : c = '\n'
      · simp [hbreak, multilineLiteral]
      · simp [multilineLiteral, hquote, ne_return_of_not_isControl hc,
          isPlainChar_of_not_isControl hc hbreak]

/-! ### The four ways -/

/-- What stands for a character begins with no quote and no line break. -/
theorem Escape.exists_first {c : Char} (h : Escape c written) : ∃ first others,
    written = first :: others ∧ first ≠ '"' ∧ first ≠ '\n' ∧ first ≠ '\r' := by
  cases h with
  | letter _ | code _ => exact ⟨'\\', _, rfl, by decide, by decide, by decide⟩
  | itself _ hquote _ hbreak hreturn => exact ⟨c, [], rfl, hquote, hbreak, hreturn⟩

/-- What comes after a string is no quote. -/
structure Unquoted (rest : List Char) : Prop where
  double : rest.head? ≠ some '"'
  single : rest.head? ≠ some '\''

theorem string_basic (hrest : Unquoted rest) :
    string (writtenAs .basic text ++ rest) = .ok (text, rest) := by
  -- What follows the first quote is not two more of them.
  have hone (rest' : List Char) :
      text.flatMap escapedChar ++ '"' :: rest ≠ '"' :: '"' :: rest' := by
    intro h
    cases text with
    | nil => exact hrest.double (by rw [(List.cons.inj h).2]; rfl)
    | cons c text =>
      obtain ⟨first, others, hwritten, hfirst, -⟩ := (escape_escapedChar c).exists_first
      rw [List.flatMap_cons, hwritten] at h
      exact hfirst (List.cons.inj h).1
  rw [writtenAs_basic_append, string, basicString_flatMap]
  exact hone

theorem string_literal (hrest : Unquoted rest)
    (htext : ∀ c ∈ text, isPlainChar c = true ∧ c ≠ '\'') :
    string (writtenAs .literal text ++ rest) = .ok (text, rest) := by
  have hone (rest' : List Char) : text ++ '\'' :: rest ≠ '\'' :: '\'' :: rest' := by
    intro h
    cases text with
    | nil => exact hrest.single (by rw [(List.cons.inj h).2]; rfl)
    | cons c text => exact (htext c List.mem_cons_self).2 (List.cons.inj h).1
  rw [writtenAs_literal_append, string, literalString_append rest htext]
  exact hone

/-- A line break right after the quotes does not count. It is written if there are others, so that
    none of those is taken for it. -/
theorem skipFirstBreak_append (h : '\n' ∉ text → ∃ first others,
    written = first :: others ∧ first ≠ '\n' ∧ first ≠ '\r') :
    skipFirstBreak ((if text.contains '\n' then ['\n'] else []) ++ written) = written := by
  split
  · rfl
  · next hnone =>
    obtain ⟨first, others, rfl, hbreak, hreturn⟩ := h (by simpa using hnone)
    simp [skipFirstBreak, hbreak, hreturn]

theorem string_multilineBasic (hrest : Unquoted rest) :
    string (writtenAs .multilineBasic text ++ rest) = .ok (text, rest) := by
  have hstart : writtenAs .multilineBasic text ++ rest =
      '"' :: '"' :: '"' :: ((if text.contains '\n' then ['\n'] else []) ++
        (escapedLines 0 text ++ '"' :: '"' :: '"' :: rest)) := by
    simp [writtenAs, Style.delimiter]
  have hfirst (hnone : '\n' ∉ text) : ∃ first others,
      escapedLines 0 text ++ '"' :: '"' :: '"' :: rest = first :: others ∧
        first ≠ '\n' ∧ first ≠ '\r' := by
    cases text with
    | nil => exact ⟨'"', _, rfl, by decide, by decide⟩
    | cons c text =>
      have hc : c ≠ '\n' := fun hc => hnone (hc ▸ List.mem_cons_self)
      rw [escapedLines]
      split_ifs with hquote hlt
      · exact ⟨'"', _, rfl, by decide, by decide⟩
      · exact ⟨'\\', _, rfl, by decide, by decide⟩
      · obtain ⟨first, others, hwritten, -, hbreak, hreturn⟩ :=
          (escape_escapedChar c).exists_first
        exact ⟨first, _, by rw [hwritten]; rfl, hbreak, hreturn⟩
  rw [hstart, string, skipFirstBreak_append hfirst]
  exact (spelt_escapedLines (Nat.zero_le 2) text).read closedByThree_multilineBasic hrest.double
    (Nat.zero_le 2)

theorem string_multilineLiteral (hrest : Unquoted rest)
    (hcontrol : ∀ c ∈ text, isControl c = false) (hrun : longestRun '\'' 0 text ≤ 2) :
    string (writtenAs .multilineLiteral text ++ rest) = .ok (text, rest) := by
  have hstart : writtenAs .multilineLiteral text ++ rest =
      '\'' :: '\'' :: '\'' :: ((if text.contains '\n' then ['\n'] else []) ++
        (text ++ '\'' :: '\'' :: '\'' :: rest)) := by
    simp [writtenAs, Style.delimiter]
  have hfirst (hnone : '\n' ∉ text) : ∃ first others,
      text ++ '\'' :: '\'' :: '\'' :: rest = first :: others ∧ first ≠ '\n' ∧ first ≠ '\r' := by
    cases text with
    | nil => exact ⟨'\'', _, rfl, by decide, by decide⟩
    | cons c text =>
      have hc : c ≠ '\n' := fun hc => hnone (hc ▸ List.mem_cons_self)
      exact ⟨c, _, rfl, hc, ne_return_of_not_isControl (hcontrol c List.mem_cons_self)⟩
  rw [hstart, string, skipFirstBreak_append hfirst]
  exact (spelt_self hrun hcontrol).read closedByThree_multilineLiteral hrest.single (Nat.zero_le 2)

/-- A string is read back, whichever way it is written. -/
theorem string_writtenString (text : List Char) (hrest : Unquoted rest) :
    string (writtenString text ++ rest) = .ok (text, rest) := by
  -- The double quotes take any text, so only the conditions for single quotes matter.
  have hcontrol (h : (!text.any isControl) = true) : ∀ c ∈ text, isControl c = false := by
    simpa using h
  rw [writtenString]
  unfold styleOf
  dsimp only
  split_ifs with hbasic hliteral hmultilineBasic hmultilineLiteral hbreak
  · exact string_basic hrest
  · simp only [Bool.and_eq_true] at hliteral
    obtain ⟨⟨hplain, hnone⟩, hquote⟩ := hliteral
    refine string_literal hrest fun c hc => ⟨?_, ?_⟩
    · refine isPlainChar_of_not_isControl (hcontrol hplain c hc) ?_
      rintro rfl
      simp [hc] at hnone
    · rintro rfl
      simp [hc] at hquote
  · exact string_multilineBasic hrest
  · simp only [Bool.and_eq_true, decide_eq_true_eq] at hmultilineLiteral
    exact string_multilineLiteral hrest (hcontrol hmultilineLiteral.1) hmultilineLiteral.2
  · exact string_multilineBasic hrest
  · exact string_basic hrest

end Versioning.Toml
