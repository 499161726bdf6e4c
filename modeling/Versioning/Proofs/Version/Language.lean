import Mathlib.Data.List.Forall2
import Versioning.Policy
import Versioning.Proofs.Version.Reading

/-!
# The language of versions

A text is a version if, without the blanks around it, it consists of one to three numbers and a
*tail*. A number is spelt by decimal digits, with a plus sign in front of them if need be
(`Numbers.SpellsOne`), and numbers have points between them (`Numbers.Spells`). A tail is empty, or
the marker alone, or anything behind a hyphen (`Version.Tail`).

Numbers hold no character that a tail can begin with, so a text is split in one way only
(`Version.IsSplit.unique`). The tail tells the marker and the qualifier. First the marker is taken
off, with one hyphen in front of it (`Version.Unmarked`); what follows the first hyphen of what is
left is the qualifier, unless that is nothing (`Version.Qualifies`).

Reading a text accepts this language, and finds the version that the text spells
(`Version.parse?_eq_some_iff`).
-/

namespace Versioning

/-! ### Blanks -/

namespace Text

/-- What is left of a text without the blanks at its two ends. -/
structure Trims (text inner : List Char) : Prop where
  split : ∃ before after, text = before ++ inner ++ after ∧
    (∀ c ∈ before, isBlankChar c = true) ∧ ∀ c ∈ after, isBlankChar c = true
  head : ∀ c ∈ inner.head?, isBlankChar c = false
  last : ∀ c ∈ inner.getLast?, isBlankChar c = false

/-- Skipped blanks in front of what does not begin with one. -/
theorem dropWhile_blanks {before inner : List Char} (hbefore : ∀ c ∈ before, isBlankChar c = true)
    (hhead : ∀ c ∈ inner.head?, isBlankChar c = false) :
    (before ++ inner).dropWhile isBlankChar = inner := by
  rw [List.dropWhile_append_of_pos hbefore]
  cases inner with
  | nil => rfl
  | cons c rest => rw [List.dropWhile_cons, hhead c rfl, if_neg Bool.false_ne_true]

/-- A text is split into blanks and what does not begin with one. -/
theorem exists_blanks (text : List Char) : ∃ before,
    text = before ++ text.dropWhile isBlankChar ∧ (∀ c ∈ before, isBlankChar c = true) ∧
      ∀ c ∈ (text.dropWhile isBlankChar).head?, isBlankChar c = false := by
  refine ⟨_, List.takeWhile_append_dropWhile.symm, List.all_eq_true.1 List.all_takeWhile,
    fun c hc => ?_⟩
  obtain ⟨rest, hrest⟩ := List.head?_eq_some_iff.1 hc
  exact head_dropWhile hrest

/-- Trimming is characterised by what it leaves. -/
theorem trimList_eq_iff {text inner : List Char} : trimList text = inner ↔ Trims text inner := by
  constructor
  · rintro rfl
    obtain ⟨before, hsplit, hbefore, hhead⟩ := exists_blanks text
    obtain ⟨after, hrest, hafter, hlast⟩ := exists_blanks (text.dropWhile isBlankChar).reverse
    have hinner : text.dropWhile isBlankChar = trimList text ++ after.reverse := by
      rw [trimList, trimEndList, ← List.reverse_append, ← hrest, List.reverse_reverse]
    refine ⟨⟨before, after.reverse, ?_, hbefore, by simpa using hafter⟩, fun c hc => ?_, ?_⟩
    · rw [List.append_assoc, ← hinner]
      exact hsplit
    · refine hhead c ?_
      rw [hinner, List.head?_append, Option.mem_def.1 hc]
      rfl
    · rw [trimList, trimEndList, List.getLast?_reverse]
      exact hlast
  · rintro ⟨⟨before, after, rfl, hbefore, hafter⟩, hhead, hlast⟩
    cases inner with
    | nil =>
      refine trimList_eq_nil_iff.2 fun c hc => ?_
      rw [List.append_nil] at hc
      exact (List.mem_append.1 hc).elim (hbefore c) (hafter c)
    | cons c rest =>
      have hskip : (before ++ (c :: rest ++ after)).dropWhile isBlankChar = c :: rest ++ after :=
        dropWhile_blanks hbefore hhead
      rw [trimList, List.append_assoc, hskip, trimEndList, List.reverse_append,
        dropWhile_blanks (by simpa using hafter) (by simpa only [List.head?_reverse] using hlast),
        List.reverse_reverse]

end Text

/-! ### Numbers -/

namespace Numbers

/-- Decimal digits that stand for a number; zeros in front of others do not count. -/
structure Denotes (digits : List Char) (n : UInt64) : Prop where
  nonempty : digits ≠ []
  isDigit : ∀ c ∈ digits, c.isDigit = true
  value : Nat.ofDigitChars 10 digits 0 = n.toNat

/-- A spelling of a number: digits that stand for it, perhaps with a plus sign in front of them. -/
inductive SpellsOne : List Char → UInt64 → Prop
  | plain {digits : List Char} {n : UInt64} : Denotes digits n → SpellsOne digits n
  | plus {digits : List Char} {n : UInt64} : Denotes digits n → SpellsOne ('+' :: digits) n

/-- A spelling of one to three numbers: a spelling of each, with points between them. -/
def Spells (text : List Char) (numbers : Numbers) : Prop :=
  ∃ parts, List.Forall₂ SpellsOne parts numbers.toList ∧ text = List.intercalate ['.'] parts

/-- Digits are read if they stand for a word. -/
theorem denotes_iff {digits : List Char} {n : UInt64} :
    (if digits.isEmpty || !digits.all Char.isDigit then none
      else if Nat.ofDigitChars 10 digits 0 < UInt64.size then
        some (UInt64.ofNat (Nat.ofDigitChars 10 digits 0))
      else none) = some n ↔ Denotes digits n := by
  rw [Option.ite_none_left_eq_some, Option.ite_none_right_eq_some]
  simp only [Bool.or_eq_true, Bool.not_eq_true', not_or, Bool.not_eq_true, Bool.not_eq_false,
    List.isEmpty_eq_false_iff, List.all_eq_true, Option.some.injEq]
  constructor
  · rintro ⟨⟨hne, hdigits⟩, hsmall, rfl⟩
    exact ⟨hne, hdigits, (UInt64.toNat_ofNat_of_lt hsmall).symm⟩
  · rintro ⟨hne, hdigits, hvalue⟩
    exact ⟨⟨hne, hdigits⟩, hvalue ▸ n.toNat_lt, by rw [hvalue, UInt64.ofNat_toNat]⟩

/-- The texts that are read as a number are its spellings. -/
theorem parseOne?_eq_some_iff {part : List Char} {n : UInt64} :
    parseOne? part = some n ↔ SpellsOne part n := by
  constructor
  · intro h
    by_cases hsign : ∃ rest, part = '+' :: rest
    · obtain ⟨rest, rfl⟩ := hsign
      exact .plus (denotes_iff.1 h)
    · rw [parseOne?.eq_2 _ fun rest hrest => hsign ⟨rest, hrest⟩] at h
      exact .plain (denotes_iff.1 h)
  · rintro (h | h)
    · -- A sign is no digit.
      have hsign : ∀ rest, part = '+' :: rest → False := by
        rintro rest rfl
        cases h.isDigit '+' List.mem_cons_self
      rw [parseOne?.eq_2 _ hsign]
      exact denotes_iff.2 h
    · exact denotes_iff.2 h

/-- A spelling holds digits and plus signs only. -/
theorem SpellsOne.isDigit_or_eq {part : List Char} {n : UInt64} (h : SpellsOne part n) :
    ∀ c ∈ part, c.isDigit = true ∨ c = '+' := by
  cases h with
  | plain h => exact fun c hc => .inl (h.isDigit c hc)
  | plus h => exact fun c hc => (List.mem_cons.1 hc).symm.imp_left (h.isDigit c)

theorem isDigit_or_eq_of_mem {parts : List (List Char)} {values : List UInt64}
    (h : List.Forall₂ SpellsOne parts values) :
    ∀ part ∈ parts, ∀ c ∈ part, c.isDigit = true ∨ c = '+' :=
  ((List.forall₂_and_left _ _).1 (h.imp fun _ _ hpart => ⟨hpart.isDigit_or_eq, hpart⟩)).1

/-- Each part is read on its own. -/
theorem mapM_parseOne?_eq_some_iff {parts : List (List Char)} {values : List UInt64} :
    parts.mapM parseOne? = some values ↔ List.Forall₂ SpellsOne parts values := by
  induction parts generalizing values with
  | nil => simp [eq_comm]
  | cons part parts ih =>
    simp only [List.mapM_cons, Option.bind_eq_bind, Option.bind_eq_some_iff, Option.pure_def,
      Option.some.injEq, List.forall₂_cons_left_iff, parseOne?_eq_some_iff, ih]
    constructor
    · rintro ⟨n, hn, values, hvalues, rfl⟩
      exact ⟨n, values, hn, hvalues, rfl⟩
    · rintro ⟨n, values, hn, hvalues, rfl⟩
      exact ⟨n, hn, values, hvalues, rfl⟩

/-- A text has at least one part. -/
theorem exists_splitPoints_eq_cons (text : List Char) :
    ∃ part parts, splitPoints text = part :: parts := by
  cases text with
  | nil => exact ⟨_, _, rfl⟩
  | cons c rest =>
    rw [splitPoints]
    split
    · exact ⟨_, _, rfl⟩
    · split <;> exact ⟨_, _, rfl⟩

/-- The parts of a text with the points between them are the text. -/
theorem intercalate_splitPoints (text : List Char) :
    List.intercalate ['.'] (splitPoints text) = text := by
  induction text with
  | nil => rfl
  | cons c rest ih =>
    obtain ⟨part, parts, hparts⟩ := exists_splitPoints_eq_cons rest
    rw [splitPoints, hparts]
    rw [hparts] at ih
    split
    · next hc => rw [List.intercalate_cons_cons, ih, hc]; rfl
    · cases parts with
      | nil => rw [List.intercalate_singleton] at ih ⊢; rw [ih]
      | cons next parts =>
        rw [List.intercalate_cons_cons] at ih ⊢
        rw [List.cons_append, List.cons_append, ih]

theorem ofList?_eq_some_iff {values : List UInt64} {numbers : Numbers} :
    ofList? values = some numbers ↔ values = numbers.toList := by
  constructor
  · intro h
    unfold ofList? at h
    split at h <;> cases h <;> rfl
  · rintro rfl
    cases numbers <;> rfl

/-- The texts that are read as numbers are their spellings. -/
theorem parse?_eq_some_iff {text : List Char} {numbers : Numbers} :
    parse? text = some numbers ↔ Spells text numbers := by
  simp only [parse?, Option.bind_eq_some_iff, mapM_parseOne?_eq_some_iff, ofList?_eq_some_iff]
  constructor
  · rintro ⟨_, hparts, rfl⟩
    exact ⟨_, hparts, (intercalate_splitPoints text).symm⟩
  · rintro ⟨parts, hparts, rfl⟩
    have hne : parts ≠ [] := by
      rintro rfl
      cases numbers <;> cases hparts
    have hpoint : ∀ part ∈ parts, '.' ∉ part := fun part hpart hmem => by
      rcases isDigit_or_eq_of_mem hparts part hpart _ hmem with hdigit | hplus
      · cases hdigit
      · cases hplus
    exact ⟨_, (splitPoints_intercalate hne hpoint).symm ▸ hparts, rfl⟩

/-- What is made up of parts with points between them holds nothing but these. -/
theorem eq_or_exists_mem_of_mem_intercalate {parts : List (List Char)} {c : Char}
    (h : c ∈ List.intercalate ['.'] parts) : c = '.' ∨ ∃ part ∈ parts, c ∈ part := by
  induction parts with
  | nil => cases h
  | cons part parts ih =>
    cases parts with
    | nil =>
      rw [List.intercalate_singleton] at h
      exact .inr ⟨part, List.mem_cons_self, h⟩
    | cons next parts =>
      rw [List.intercalate_cons_cons, List.mem_append, List.mem_append, List.mem_singleton] at h
      obtain (h | rfl) | h := h
      · exact .inr ⟨part, List.mem_cons_self, h⟩
      · exact .inl rfl
      · exact (ih h).imp_right fun ⟨part, hpart, hc⟩ => ⟨part, List.mem_cons_of_mem _ hpart, hc⟩

/-- A spelling of numbers holds digits, plus signs and points only. -/
theorem Spells.mem {text : List Char} {numbers : Numbers} (h : Spells text numbers) :
    ∀ c ∈ text, c.isDigit = true ∨ c = '+' ∨ c = '.' := by
  obtain ⟨parts, hparts, rfl⟩ := h
  intro c hc
  obtain rfl | ⟨part, hpart, hc⟩ := eq_or_exists_mem_of_mem_intercalate hc
  · exact .inr (.inr rfl)
  · exact (isDigit_or_eq_of_mem hparts part hpart c hc).imp_right .inl

theorem spells_chars (numbers : Numbers) : Spells numbers.chars numbers :=
  parse?_eq_some_iff.1 (parse?_chars numbers)

end Numbers

/-! ### Versions -/

namespace Version

/-- What may stand behind the numbers of a version: nothing, the marker alone, or anything behind a
    hyphen. -/
inductive Tail : List Char → Prop
  | nil : Tail []
  | marker : Tail snapshotMarker.toList
  | hyphen (rest : List Char) : Tail ('-' :: rest)

/-- A text and what is left of it without the marker at its end, which takes one hyphen in front of
    it along. -/
inductive Unmarked : List Char → List Char → Prop
  | absent {text : List Char} : ¬snapshotMarker.toList <:+ text → Unmarked text text
  | hyphened (body : List Char) : Unmarked (body ++ '-' :: snapshotMarker.toList) body
  | bare {body : List Char} : ¬['-'] <:+ body → Unmarked (body ++ snapshotMarker.toList) body

/-- The qualifier in an unmarked tail: what follows its hyphen, unless that is nothing. -/
inductive Qualifies : List Char → Option String → Prop
  | nil : Qualifies [] none
  | hyphen : Qualifies ['-'] none
  | qualifier {q : String} : q ≠ "" → Qualifies ('-' :: q.toList) (some q)

/-- How numbers and a tail spell a version. -/
structure Spells (numbers tail : List Char) (v : Version) : Prop where
  spelled : Numbers.Spells numbers v.numbers
  qualifier : ∃ body, Unmarked tail body ∧ Qualifies body v.qualifier?
  snapshot : v.snapshot = true ↔ snapshotMarker.toList <:+ numbers ++ tail

/-- A text is split into the spelling of one to three numbers and a tail. -/
structure IsSplit (text numbers tail : List Char) : Prop where
  append : text = numbers ++ tail
  spelled : ∃ ns, Numbers.Spells numbers ns
  tail : Tail tail

/-! ### The marker -/

theorem takeSuffix?_eq_none_iff {suffix text : List Char} :
    takeSuffix? suffix text = none ↔ ¬suffix <:+ text := by
  rw [takeSuffix?, ← List.isSuffixOf_iff_suffix]
  split <;> simp_all

/-- The marker is split off as it should be. -/
theorem unmarked_iff {text body : List Char} : Unmarked text body ↔ (splitMarker text).1 = body := by
  constructor
  · rintro (habsent | _ | hbare)
    · rw [splitMarker, takeSuffix?_eq_none_iff.2 habsent]
    · rw [splitMarker_append]
    · rw [splitMarker, takeSuffix?_eq_some_iff.2 rfl]
      dsimp only
      rw [takeSuffix?_eq_none_iff.2 hbare, Option.getD_none]
  · rintro rfl
    rw [splitMarker]
    split
    · next rest hrest =>
      obtain rfl := takeSuffix?_eq_some_iff.1 hrest
      cases hhyphen : takeSuffix? ['-'] rest with
      | none => exact .bare (takeSuffix?_eq_none_iff.1 hhyphen)
      | some body =>
        obtain rfl := takeSuffix?_eq_some_iff.1 hhyphen
        rw [List.append_assoc]
        exact .hyphened body
    · next hnone => exact .absent (takeSuffix?_eq_none_iff.1 hnone)

/-- Whether the marker was there. -/
theorem splitMarker_snd {text : List Char} :
    (splitMarker text).2 = true ↔ snapshotMarker.toList <:+ text := by
  rw [splitMarker]
  split
  · next rest hrest => exact ⟨fun _ => ⟨rest, (takeSuffix?_eq_some_iff.1 hrest).symm⟩, fun _ => rfl⟩
  · next hnone => simp [takeSuffix?_eq_none_iff.1 hnone]

/-- An end of a text that starts with none of the characters in front of `tail` is an end of
    `tail`. -/
theorem suffix_of_suffix_append {suffix numbers tail : List Char} (h : suffix <:+ numbers ++ tail)
    (hhead : ∀ c ∈ suffix.head?, c ∉ numbers) : suffix <:+ tail := by
  obtain ⟨before, hsplit⟩ := h
  obtain ⟨between, rfl, rfl⟩ | ⟨between, -, rfl⟩ := List.append_eq_append_iff.1 hsplit
  · cases between with
    | nil => exact List.suffix_rfl
    | cons c between => exact absurd (List.mem_append_right _ List.mem_cons_self) (hhead c rfl)
  · exact List.suffix_append _ _

/-- Numbers in front of a tail do not count for the marker. -/
theorem Unmarked.append {numbers tail body : List Char} (hhyphen : '-' ∉ numbers)
    (hletter : 'S' ∉ numbers) (h : Unmarked tail body) :
    Unmarked (numbers ++ tail) (numbers ++ body) := by
  cases h with
  | absent habsent =>
    refine .absent fun hmarker => habsent (suffix_of_suffix_append hmarker ?_)
    rintro _ ⟨⟩
    exact hletter
  | hyphened =>
    rw [← List.append_assoc]
    exact .hyphened _
  | bare hbare =>
    rw [← List.append_assoc]
    refine .bare fun hend => hbare (suffix_of_suffix_append hend ?_)
    rintro _ ⟨⟩
    exact hhyphen

/-- Without the marker, a text begins as it did. -/
theorem Unmarked.exists_tail {text numbers body : List Char} (h : Unmarked text (numbers ++ body)) :
    ∃ tail, text = numbers ++ tail ∧ Unmarked tail body := by
  generalize hwhole : numbers ++ body = whole at h
  cases h with
  | absent habsent =>
    subst hwhole
    exact ⟨body, rfl, .absent fun h => habsent (h.trans (List.suffix_append _ _))⟩
  | hyphened =>
    subst hwhole
    exact ⟨_, List.append_assoc _ _ _, .hyphened body⟩
  | bare hbare =>
    subst hwhole
    exact ⟨_, List.append_assoc _ _ _, .bare fun h => hbare (h.trans (List.suffix_append _ _))⟩

/-! ### The qualifier -/

/-- Numbers and an unmarked tail are told apart. -/
theorem splitQualifier_append {numbers body : List Char} {qualifier? : Option String}
    (hhyphen : '-' ∉ numbers) (h : Qualifies body qualifier?) :
    splitQualifier (numbers ++ body) = (numbers, qualifier?) := by
  have hnumbers : ∀ c ∈ numbers, (c != '-') = true := by
    intro c hc
    refine bne_iff_ne.2 ?_
    rintro rfl
    exact hhyphen hc
  rw [splitQualifier, List.dropWhile_append_of_pos hnumbers, List.takeWhile_append_of_pos hnumbers]
  cases h with
  | nil => simp
  | hyphen => simp
  | @qualifier q hq =>
    cases hchars : q.toList with
    | nil => exact absurd (String.toList_eq_nil_iff.1 hchars) hq
    | cons c rest =>
      rw [← String.ofList_toList (s := q), hchars]
      simp

/-- There is a qualifier to tell, or to miss, in what is empty or begins with a hyphen. -/
theorem exists_qualifies_iff {body : List Char} :
    (∃ qualifier?, Qualifies body qualifier?) ↔ body = [] ∨ ∃ rest, body = '-' :: rest := by
  constructor
  · rintro ⟨_, _ | _ | _⟩
    · exact .inl rfl
    · exact .inr ⟨_, rfl⟩
    · exact .inr ⟨_, rfl⟩
  · rintro (rfl | ⟨rest, rfl⟩)
    · exact ⟨none, .nil⟩
    · cases rest with
      | nil => exact ⟨none, .hyphen⟩
      | cons c rest =>
        have hne : String.ofList (c :: rest) ≠ "" := by simp
        have hqualifies := Qualifies.qualifier hne
        rw [String.toList_ofList] at hqualifies
        exact ⟨_, hqualifies⟩

/-- Every text is split at its first hyphen. -/
theorem exists_append_qualifies (body : List Char) : ∃ numbers rest qualifier?,
    body = numbers ++ rest ∧ '-' ∉ numbers ∧ Qualifies rest qualifier? := by
  have hnumbers : '-' ∉ body.takeWhile (· != '-') := fun hmem => by
    simpa using List.all_eq_true.1 List.all_takeWhile _ hmem
  have hrest : body.dropWhile (· != '-') = [] ∨ ∃ rest, body.dropWhile (· != '-') = '-' :: rest := by
    cases hdrop : body.dropWhile (· != '-') with
    | nil => exact .inl rfl
    | cons c rest =>
      obtain rfl : c = '-' := by simpa using Text.head_dropWhile hdrop
      exact .inr ⟨rest, rfl⟩
  obtain ⟨qualifier?, hqualifies⟩ := exists_qualifies_iff.2 hrest
  exact ⟨_, _, qualifier?, List.takeWhile_append_dropWhile.symm, hnumbers, hqualifies⟩

/-- Without the marker, what begins with a hyphen still does so, or nothing is left of it. -/
theorem Unmarked.eq_nil_or_cons {rest body : List Char} (h : Unmarked ('-' :: rest) body) :
    body = [] ∨ ∃ rest, body = '-' :: rest := by
  generalize htext : '-' :: rest = text at h
  cases h with
  | absent => exact .inr ⟨rest, htext.symm⟩
  | hyphened =>
    obtain ⟨hnil, -⟩ | ⟨rest', hcons, -⟩ := List.cons_eq_append_iff.1 htext
    · exact .inl hnil
    · exact .inr ⟨rest', hcons⟩
  | bare =>
    obtain ⟨-, hmarker⟩ | ⟨rest', hcons, -⟩ := List.cons_eq_append_iff.1 htext
    · cases hmarker
    · exact .inr ⟨rest', hcons⟩

/-- A tail is what a qualifier can be told in when the marker is taken away. -/
theorem tail_iff {tail : List Char} :
    Tail tail ↔ ∃ body qualifier?, Unmarked tail body ∧ Qualifies body qualifier? := by
  simp only [exists_and_left, exists_qualifies_iff]
  constructor
  · rintro (_ | _ | rest)
    · exact ⟨[], .absent (by decide), .inl rfl⟩
    · have hbare : Unmarked ([] ++ snapshotMarker.toList) [] := .bare (by decide)
      exact ⟨[], hbare, .inl rfl⟩
    · have hunmarked : Unmarked ('-' :: rest) (splitMarker ('-' :: rest)).1 := unmarked_iff.2 rfl
      exact ⟨_, hunmarked, hunmarked.eq_nil_or_cons⟩
  · rintro ⟨body, hunmarked, hbody⟩
    cases hunmarked with
    | absent =>
      obtain rfl | ⟨rest, rfl⟩ := hbody
      · exact .nil
      · exact .hyphen rest
    | hyphened =>
      obtain rfl | ⟨rest, rfl⟩ := hbody <;> exact .hyphen _
    | bare =>
      obtain rfl | ⟨rest, rfl⟩ := hbody
      · exact .marker
      · exact .hyphen _

/-! ### Reading a version -/

/-- Neither the hyphen nor the letters of the marker are part of numbers. -/
theorem not_mem_of_spells {text : List Char} {numbers : Numbers} (h : Numbers.Spells text numbers)
    {c : Char} (hdigit : c.isDigit = false) (hplus : c ≠ '+') (hpoint : c ≠ '.') : c ∉ text := by
  intro hc
  obtain hc | hc | hc := h.mem c hc
  · rw [hdigit] at hc
    cases hc
  · exact hplus hc
  · exact hpoint hc

/-- The versions that a text is read as are those that its inner part spells. -/
theorem parse?_eq_some_iff {text : String} {v : Version} :
    parse? text = some v ↔
      ∃ numbers tail, Text.trimList text.toList = numbers ++ tail ∧ Spells numbers tail v := by
  generalize hinner : Text.trimList text.toList = inner
  rw [parse?, hinner]
  dsimp only
  constructor
  · intro h
    obtain ⟨numbers, rest, qualifier?, hbody, hhyphen, hqualifies⟩ :=
      exists_append_qualifies (splitMarker inner).1
    rw [hbody, splitQualifier_append hhyphen hqualifies] at h
    obtain ⟨ns, hns, rfl⟩ := Option.map_eq_some_iff.1 h
    obtain ⟨tail, rfl, hunmarked⟩ := (unmarked_iff.2 hbody).exists_tail
    exact ⟨numbers, tail, rfl, Numbers.parse?_eq_some_iff.1 hns, ⟨rest, hunmarked, hqualifies⟩,
      splitMarker_snd⟩
  · rintro ⟨numbers, tail, rfl, hspells, ⟨body, hunmarked, hqualifies⟩, hsnapshot⟩
    have hhyphen : '-' ∉ numbers := not_mem_of_spells hspells (by decide) (by decide) (by decide)
    have hletter : 'S' ∉ numbers := not_mem_of_spells hspells (by decide) (by decide) (by decide)
    rw [unmarked_iff.1 (hunmarked.append hhyphen hletter), splitQualifier_append hhyphen hqualifies]
    dsimp only
    rw [Numbers.parse?_eq_some_iff.2 hspells, Option.map_some,
      Bool.eq_iff_iff.2 (splitMarker_snd.trans hsnapshot.symm)]

/-! ### The split -/

/-- Numbers end where the tail of a version begins. -/
theorem IsSplit.takeWhile {text numbers tail : List Char} (h : IsSplit text numbers tail) :
    text.takeWhile (fun c => c.isDigit || c == '+' || c == '.') = numbers := by
  obtain ⟨rfl, ⟨ns, hns⟩, htail⟩ := h
  rw [List.takeWhile_append_of_pos fun c hc => by simpa [or_assoc] using hns.mem c hc]
  cases htail <;> simp [snapshotMarker]

/-- There is at most one split. -/
theorem IsSplit.unique {text numbers tail numbers' tail' : List Char} (h : IsSplit text numbers tail)
    (h' : IsSplit text numbers' tail') : numbers' = numbers ∧ tail' = tail := by
  have hnumbers : numbers' = numbers := h'.takeWhile.symm.trans h.takeWhile
  subst hnumbers
  exact ⟨rfl, List.append_cancel_left (h'.append.symm.trans h.append)⟩

/-- What spells a version is split into its numbers and its tail. -/
theorem Spells.isSplit {numbers tail : List Char} {v : Version} (h : Spells numbers tail v) :
    IsSplit (numbers ++ tail) numbers tail :=
  ⟨rfl, ⟨_, h.spelled⟩, tail_iff.2 <| by
    obtain ⟨body, hunmarked, hqualifies⟩ := h.qualifier
    exact ⟨body, _, hunmarked, hqualifies⟩⟩

/-- What can be split spells a version. -/
theorem IsSplit.exists_spells {text numbers tail : List Char} (h : IsSplit text numbers tail) :
    ∃ v, Spells numbers tail v := by
  obtain ⟨ns, hns⟩ := h.spelled
  obtain ⟨body, qualifier?, hunmarked, hqualifies⟩ := tail_iff.1 h.tail
  exact ⟨⟨ns, qualifier?, decide (snapshotMarker.toList <:+ numbers ++ tail)⟩, hns,
    ⟨body, hunmarked, hqualifies⟩, decide_eq_true_iff⟩

theorem readVersion_eq_pure_iff {text : String} {v : Version} :
    readVersion text = pure v ↔ parse? text = some v := by
  rw [readVersion]
  constructor
  · intro h
    have hrun := congrArg (fun x => (x.run Journal.empty).1) h
    split at hrun <;> cases hrun
    assumption
  · intro h
    rw [h]

theorem readVersion_of_unreadable {text : String} (h : parse? text = none) :
    readVersion text = Consult.fail (.versionFormat (.unreadable text)) := by
  rw [readVersion, h]

/-- A text is read as a version exactly if, without the blanks around it, it can be split into the
    spelling of numbers and a tail. There is one such split then, and it spells the version. Any
    other text is refused, and the error holds it as it was given. -/
theorem readVersion_language {text : String} {inner : List Char}
    (htrims : Text.Trims text.toList inner) :
    ((∃ v, readVersion text = pure v) ↔ ∃ numbers tail, IsSplit inner numbers tail) ∧
      (∀ numbers tail, IsSplit inner numbers tail →
        (∀ numbers' tail', IsSplit inner numbers' tail' → numbers' = numbers ∧ tail' = tail) ∧
          ∃ v, readVersion text = pure v ∧ Spells numbers tail v) ∧
      ((¬∃ numbers tail, IsSplit inner numbers tail) →
        readVersion text = Consult.fail (.versionFormat (.unreadable text))) := by
  have hinner := Text.trimList_eq_iff.2 htrims
  have hread (v : Version) : readVersion text = pure v ↔
      ∃ numbers tail, inner = numbers ++ tail ∧ Spells numbers tail v := by
    rw [readVersion_eq_pure_iff, parse?_eq_some_iff, hinner]
  have hexists : ∀ numbers tail, IsSplit inner numbers tail →
      ∃ v, readVersion text = pure v ∧ Spells numbers tail v := by
    intro numbers tail hsplit
    obtain ⟨v, hv⟩ := hsplit.exists_spells
    exact ⟨v, (hread v).2 ⟨numbers, tail, hsplit.append, hv⟩, hv⟩
  have hsplits : (∃ v, readVersion text = pure v) ↔ ∃ numbers tail, IsSplit inner numbers tail := by
    constructor
    · rintro ⟨v, hv⟩
      obtain ⟨numbers, tail, rfl, hspells⟩ := (hread v).1 hv
      exact ⟨numbers, tail, hspells.isSplit⟩
    · rintro ⟨numbers, tail, hsplit⟩
      obtain ⟨v, hv, -⟩ := hexists numbers tail hsplit
      exact ⟨v, hv⟩
  refine ⟨hsplits, fun numbers tail hsplit =>
    ⟨fun _ _ => hsplit.unique, hexists numbers tail hsplit⟩, fun hnone => ?_⟩
  refine readVersion_of_unreadable (Option.eq_none_iff_forall_ne_some.2 fun v hv => hnone ?_)
  exact hsplits.1 ⟨v, readVersion_eq_pure_iff.2 hv⟩

/-- Blanks around the text do not count, and neither does an empty qualifier. -/
theorem readVersion_language_of_hyphens :
    Text.Trims " 1.0--SNAPSHOT\n".toList "1.0--SNAPSHOT".toList ∧
      ∃ v, readVersion " 1.0--SNAPSHOT\n" = pure v ∧
        Spells "1.0".toList "--SNAPSHOT".toList v := by
  have htrims : Text.Trims " 1.0--SNAPSHOT\n".toList "1.0--SNAPSHOT".toList :=
    Text.trimList_eq_iff.1 (by decide)
  have hsplit : IsSplit "1.0--SNAPSHOT".toList "1.0".toList "--SNAPSHOT".toList :=
    ⟨rfl, ⟨.two 1 0, Numbers.spells_chars (.two 1 0)⟩, .hyphen _⟩
  exact ⟨htrims, ((readVersion_language htrims).2.1 _ _ hsplit).2⟩

end Version

end Versioning
