import Versioning.Repository.Pathspec

/-!
# Plain paths

The path of a directory selects what lies in the directory, and nothing else, if it is *plain*
(`FilePath.Plain`): if there are neither wildcards nor backslashes in it, nor line breaks, and if
it begins and ends with bytes that count in a specification.
-/

namespace Versioning

namespace Pathspec

/-- Each byte stands for itself. -/
structure Plain (text : List UInt8) : Prop where
  ne_nil : text ≠ []
  ne_dot : text ≠ ['.'.toUInt8]
  head_ne : ∀ b ∈ text.head?, b ∉ ['#', '!', '/'].map Char.toUInt8
  inside : ∀ b ∈ text, isWildcard b = false ∧ isEscape b = false ∧ (10 ≤ b && b ≤ 12) = false
  last_ne : ∀ b ∈ text.getLast?, b ∉ ['\r', ' ', '\t', '/'].map Char.toUInt8

theorem beforeWildcard_eq_self {text : List UInt8} (h : ∀ b ∈ text, isWildcard b = false)
    (previous? : Option UInt8) : beforeWildcard previous? text = text := by
  induction text generalizing previous? with
  | nil => rfl
  | cons b rest ih =>
    obtain ⟨hb, hrest⟩ := List.forall_mem_cons.1 h
    rw [beforeWildcard, hb, Bool.false_and, if_neg Bool.false_ne_true, ih hrest]

theorem unescape_eq_self {text : List UInt8} (h : ∀ b ∈ text, isEscape b = false) :
    unescape text = text := by
  induction text using unescape.induct with
  | case1 => rfl
  | case2 b => rfl
  | case3 b c rest hb ih => cases (h b List.mem_cons_self).symm.trans hb
  | case4 b c rest hb ih =>
    rw [unescape, if_neg hb, ih (List.forall_mem_cons.1 h).2]

theorem scan_eq_self {text : List UInt8}
    (h : ∀ b ∈ text, isWildcard b = false ∧ isEscape b = false ∧ (10 ≤ b && b ≤ 12) = false) :
    scan false text = (text, false) := by
  induction text with
  | nil => rfl
  | cons b rest ih =>
    obtain ⟨⟨hwild, hescape, hbreak⟩, hrest⟩ := List.forall_mem_cons.1 h
    simp [scan, hwild, hescape, hbreak, ih hrest]

theorem unescapeBlanks_eq_self {text : List UInt8} (h : ∀ b ∈ text, isEscape b = false) :
    unescapeBlanks false text = text := by
  induction text with
  | nil => rfl
  | cons b rest ih =>
    obtain ⟨hb, hrest⟩ := List.forall_mem_cons.1 h
    simp [unescapeBlanks, hb, ih hrest]

theorem dropHead_eq_self {b : UInt8} {text : List UInt8} (h : text.head? ≠ some b) :
    dropHead b text = text :=
  if_neg (mt eq_of_beq h)

/-- Nothing is taken away from the end. -/
theorem Plain.trimEnd_eq {text : List UInt8} (h : Plain text) : trimEnd text = text := by
  obtain ⟨b, rest, hreverse⟩ := List.exists_cons_of_ne_nil (List.reverse_ne_nil_iff.2 h.ne_nil)
  have hlast : text.getLast? = some b := by rw [List.getLast?_eq_head?_reverse, hreverse]; rfl
  have hne (c : Char) (hc : c ∈ ['\r', ' ', '\t', '/']) : (b == c.toUInt8) = false :=
    beq_false_of_ne fun heq => h.last_ne b hlast (heq ▸ List.mem_map_of_mem hc)
  have hstar : (b == '*'.toUInt8) = false := by
    have hwild := (h.inside b (List.mem_of_getLast? hlast)).1
    simp only [isWildcard, Bool.or_eq_false_iff] at hwild
    exact hwild.1.1
  have htext : (b :: rest).reverse = text := by rw [← hreverse, List.reverse_reverse]
  rw [trimEnd, hreverse]
  cases rest with
  | nil => simp [dropHead, dropSpaces, hne, htext]
  | cons c rest => simp [dropHead, dropSpaces, hne, hstar, htext]

/-- The specification is read as the text itself. -/
theorem Plain.ofBytes?_eq {text : List UInt8} (h : Plain text) :
    ofBytes? text = some (.pattern text false false) := by
  have hstar : (text == ['*'.toUInt8]) = false := by
    refine beq_false_of_ne fun heq => ?_
    cases (h.inside '*'.toUInt8 (heq ▸ List.mem_singleton_self _)).1
  have hdot : (text == ['.'.toUInt8]) = false := beq_false_of_ne h.ne_dot
  have hhead (c : Char) (hc : c ∈ ['#', '!', '/']) : text.head? ≠ some c.toUInt8 :=
    fun heq => h.head_ne _ heq (List.mem_map_of_mem hc)
  have hhash : (text.head? == some '#'.toUInt8) = false := beq_false_of_ne (hhead '#' (by simp))
  have hbang : (text.head? == some '!'.toUInt8) = false := beq_false_of_ne (hhead '!' (by simp))
  have hempty : text.isEmpty = false := by simpa using h.ne_nil
  simp [ofBytes?, hstar, hdot, hhash, hbang, dropHead_eq_self (hhead '!' (by simp)),
    dropHead_eq_self (hhead '/' (by simp)), scan_eq_self h.inside, h.trimEnd_eq, hempty,
    unescapeBlanks_eq_self fun b hb => (h.inside b hb).2.1]

/-! ### Comparisons -/

/-- The parts of the pattern are its bytes. -/
theorem readParts_eq_map {text : List UInt8} {fuel : Nat} (hfuel : text.length ≤ fuel)
    (h : ∀ b ∈ text, isWildcard b = false ∧ isEscape b = false) :
    Glob.readParts fuel text = text.map .byte := by
  induction text generalizing fuel with
  | nil => cases fuel <;> rfl
  | cons b rest ih =>
    obtain ⟨⟨hwild, hescape⟩, hrest⟩ := List.forall_mem_cons.1 h
    simp only [isWildcard, Bool.or_eq_false_iff] at hwild
    cases fuel with
    | zero => cases hfuel
    | succ fuel =>
      rw [Glob.readParts, hwild.1.1, hwild.1.2, hwild.2, hescape, List.map_cons,
        ih (Nat.le_of_succ_le_succ hfuel) hrest]
      rfl

/-- Bytes are found in nothing but themselves, -/
theorem eq_of_run_bytes {text path : List UInt8} (h : Glob.run (text.map .byte) path = .found) :
    path = text := by
  induction text generalizing path with
  | nil =>
    cases path with
    | nil => rfl
    | cons c path => cases h
  | cons b rest ih =>
    cases path with
    | nil => cases h
    | cons c path =>
      simp only [List.map_cons, Glob.run, Glob.Part.takes?] at h
      cases hc : c == b <;> rw [hc] at h
      · cases h
      · rw [eq_of_beq hc, ih h]

/-- and missed in what goes on behind them. -/
theorem run_bytes_append (text : List UInt8) (b : UInt8) (rest : List UInt8) :
    Glob.run (text.map .byte) (text ++ b :: rest) = .missed := by
  induction text with
  | nil => rfl
  | cons c text ih => simp [Glob.run, Glob.Part.takes?, ih]

/-- A plain specification takes the path that it spells and those below it. -/
theorem Plain.takes_iff {text path : List UInt8} (h : Plain text) :
    (pattern text false false).takes path = true ↔ isAtOrBelow text path = true := by
  have hparts : Glob.parts text = text.map .byte :=
    readParts_eq_map (Nat.le_refl _) fun b hb => ⟨(h.inside b hb).1, (h.inside b hb).2.1⟩
  by_cases heq : path = text
  · simp [takes, isAtOrBelow, heq]
  · by_cases hbelow : text ++ ['/'.toUInt8] <+: path
    · obtain ⟨rest, rfl⟩ := hbelow
      have hmissed := run_bytes_append text '/'.toUInt8 rest
      simp [takes, isAtOrBelow, hparts, hmissed]
    · have hne : Glob.run (Glob.parts text) path ≠ .found := fun hfound =>
        heq (eq_of_run_bytes (hparts ▸ hfound))
      cases hrun : Glob.run (Glob.parts text) path with
      | found => exact absurd hrun hne
      | missed => simp [takes, isAtOrBelow, heq, hrun, hbelow]
      | stopped => simp [takes, isAtOrBelow, heq, hrun, hbelow]

end Pathspec

namespace FilePath

/-- A path is that of a directory, or the path of something in it. -/
def AtOrBelow (directory path : FilePath) : Prop :=
  path.bytes = directory.bytes ∨ directory.bytes ++ ['/'.toUInt8] <+: path.bytes

/-- The path of a directory stands for itself when it is taken for a specification. -/
def Plain (directory : FilePath) : Prop :=
  Pathspec.Plain directory.bytes

/-- A plain path selects what it spells and what is below it. -/
theorem Plain.selects_iff {directory path : FilePath} (h : directory.Plain) :
    directory.selects path = true ↔ directory.AtOrBelow path := by
  have hstart : Pathspec.start directory.bytes = directory.bytes := by
    rw [Pathspec.start, Pathspec.beforeWildcard_eq_self fun b hb => (h.inside b hb).1,
      Pathspec.unescape_eq_self fun b hb => (h.inside b hb).2.1]
  rw [selects, hstart, h.ofBytes?_eq, Bool.and_eq_true, Option.all_some, h.takes_iff,
    Pathspec.isAtOrBelow, Bool.or_eq_true, beq_iff_eq, List.isPrefixOf_iff_prefix,
    List.isPrefixOf_iff_prefix]
  refine and_iff_right_of_imp fun h => ?_
  rcases h with heq | ⟨rest, hrest⟩
  · exact heq ▸ List.prefix_rfl
  · exact ⟨'/'.toUInt8 :: rest, by simpa using hrest⟩

end FilePath

end Versioning
