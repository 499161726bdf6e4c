import Mathlib.Data.List.TakeWhile
import Versioning.FileTree
import Versioning.Proofs.Repository.Pathspec
import Versioning.Proofs.Text.ByteOrder

/-!
# Names in paths

A path that does not lead anywhere is taken at its word. Its names *spell* what is below a root
(`SpellsBelow`): the names of the root come first, and what follows them is left as it is written,
but for the idle names at its end. So idle names may be left inside of it
(`namesBelow?_eq_some_iff`).

The files of a commit never have such names (`FilePath.WellFormed`), so that none of them lies at or
below a path with one (`FilePath.WellFormed.not_atOrBelow`).
-/

namespace Versioning

/-! ## Paths at their word -/

/-- The names of a path spell what is below a root. Idle names do not count on the way to it, nor
    behind it. -/
structure SpellsBelow (root : Place) (names : List String) (below : List String) : Prop where
  split : ∃ above after, names = above ++ below ++ after ∧
    above.filter (fun name => !isIdleName name) = root ∧ ∀ name ∈ after, isIdleName name = true
  first : ∀ name ∈ below.head?, isIdleName name = false
  last : ∀ name ∈ below.getLast?, isIdleName name = false

variable {root : Place} {names below : List String} {name : String}

theorem not_idle_of_mem_head?_dropWhile (h : name ∈ (names.dropWhile isIdleName).head?) :
    isIdleName name = false := by
  have hnot := List.head?_dropWhile_not isIdleName names
  rw [Option.mem_def.1 h] at hnot
  simpa using hnot

theorem dropWhile_idle_eq_self (h : ∀ name ∈ names.head?, isIdleName name = false) :
    names.dropWhile isIdleName = names := by
  cases names with
  | nil => rfl
  | cons name names => exact List.dropWhile_cons_of_neg (by simp [h name rfl])

/-- What is left of some names is spelled by them, -/
theorem spellsBelow_trimNames (names : List String) : SpellsBelow [] names (trimNames names) := by
  generalize hrest : names.dropWhile isIdleName = rest
  have hnames : names.takeWhile isIdleName ++ rest = names := by
    rw [← hrest, List.takeWhile_append_dropWhile]
  have htrim : trimNames names ++ (rest.reverse.takeWhile isIdleName).reverse = rest := by
    rw [trimNames, hrest, ← List.reverse_append, List.takeWhile_append_dropWhile,
      List.reverse_reverse]
  refine ⟨⟨names.takeWhile isIdleName, (rest.reverse.takeWhile isIdleName).reverse, ?_, ?_, ?_⟩,
    fun name h => ?_, fun name h => ?_⟩
  · rw [List.append_assoc, htrim, hnames]
  · exact List.filter_eq_nil_iff.2 fun name h => by simp [List.mem_takeWhile_imp h]
  · exact fun name h => List.mem_takeWhile_imp (List.mem_reverse.1 h)
  · have hhead : name ∈ (names.dropWhile isIdleName).head? := by
      rw [hrest, ← htrim, List.head?_append, Option.mem_def.1 h, Option.some_or]
      rfl
    exact not_idle_of_mem_head?_dropWhile hhead
  · rw [trimNames, List.getLast?_reverse] at h
    exact not_idle_of_mem_head?_dropWhile h

/-- and idle names behind some others are left out. -/
theorem trimNames_append {after : List String}
    (hfirst : ∀ name ∈ below.head?, isIdleName name = false)
    (hlast : ∀ name ∈ below.getLast?, isIdleName name = false)
    (hafter : ∀ name ∈ after, isIdleName name = true) : trimNames (below ++ after) = below := by
  cases below with
  | nil => rw [trimNames, List.nil_append, List.dropWhile_eq_nil_iff.2 hafter]; rfl
  | cons name rest =>
    have hkept : (name :: rest ++ after).dropWhile isIdleName = name :: rest ++ after :=
      dropWhile_idle_eq_self hfirst
    rw [trimNames, hkept, List.reverse_append,
      List.dropWhile_append_of_pos fun name h => hafter name (List.mem_reverse.1 h),
      dropWhile_idle_eq_self (by rwa [List.head?_reverse]), List.reverse_reverse]

theorem namesBelow?_cons_of_idle (h : isIdleName name = true) :
    namesBelow? root (name :: names) = namesBelow? root names := by
  cases root with
  | nil => rw [namesBelow?, namesBelow?, trimNames, List.dropWhile_cons_of_pos h, trimNames]
  | cons first root => rw [namesBelow?, if_pos h]

theorem namesBelow?_cons_self (h : isIdleName name = false) :
    namesBelow? (name :: root) (name :: names) = namesBelow? root names := by
  rw [namesBelow?, if_neg (by simp [h]), if_pos (beq_self_eq_true name)]

/-- The names of the root may stand in front of any others, with idle names in between. -/
theorem namesBelow?_append (above names : List String) :
    namesBelow? (above.filter fun name => !isIdleName name) (above ++ names) =
      namesBelow? [] names := by
  induction above with
  | nil => rfl
  | cons name above ih =>
    cases hidle : isIdleName name with
    | true =>
      rw [List.filter_cons_of_neg (by simp [hidle]), List.cons_append,
        namesBelow?_cons_of_idle hidle, ih]
    | false =>
      rw [List.filter_cons_of_pos (by simp [hidle]), List.cons_append,
        namesBelow?_cons_self hidle, ih]

/-- What some names have below a root is what they spell. -/
theorem namesBelow?_eq_some_iff :
    namesBelow? root names = some below ↔ SpellsBelow root names below := by
  constructor
  · intro h
    induction root, names using namesBelow?.induct with
    | case1 names =>
      rw [namesBelow?, Option.some.injEq] at h
      exact h ▸ spellsBelow_trimNames names
    | case2 => cases h
    | case3 first root name names hidle ih =>
      rw [namesBelow?_cons_of_idle hidle] at h
      obtain ⟨⟨above, after, rfl, habove, hafter⟩, hfirst, hlast⟩ := ih h
      exact ⟨⟨name :: above, after, rfl, by simp [hidle, habove], hafter⟩, hfirst, hlast⟩
    | case4 first root name names hidle hname ih =>
      obtain rfl : name = first := eq_of_beq hname
      rw [namesBelow?_cons_self (Bool.eq_false_iff.2 hidle)] at h
      obtain ⟨⟨above, after, rfl, habove, hafter⟩, hfirst, hlast⟩ := ih h
      exact ⟨⟨name :: above, after, rfl, by simp [hidle, habove], hafter⟩, hfirst, hlast⟩
    | case5 first root name names hidle hname =>
      rw [namesBelow?, if_neg hidle, if_neg hname] at h
      cases h
  · rintro ⟨⟨above, after, rfl, rfl, hafter⟩, hfirst, hlast⟩
    rw [List.append_assoc, namesBelow?_append, namesBelow?,
      trimNames_append hfirst hlast hafter]

/-- There is nothing below a root that the names do not lead through. -/
theorem namesBelow?_eq_none_iff :
    namesBelow? root names = none ↔ ¬root <+: names.filter fun name => !isIdleName name := by
  induction root, names using namesBelow?.induct with
  | case1 names => simp [namesBelow?]
  | case2 first root => simp [namesBelow?]
  | case3 first root name names hidle ih =>
    rw [namesBelow?_cons_of_idle hidle, List.filter_cons_of_neg (by simp [hidle]), ih]
  | case4 first root name names hidle hname ih =>
    obtain rfl : name = first := eq_of_beq hname
    rw [namesBelow?_cons_self (Bool.eq_false_iff.2 hidle),
      List.filter_cons_of_pos (by simp [hidle]), List.cons_prefix_cons, ih, and_iff_right rfl]
  | case5 first root name names hidle hname =>
    have hne : first ≠ name := fun heq => hname (beq_iff_eq.2 heq.symm)
    rw [namesBelow?, if_neg hidle, if_neg hname, List.filter_cons_of_pos (by simp [hidle]),
      List.cons_prefix_cons]
    simp [hne]

/-! ## Files -/

namespace Text

theorem bytes_append (s t : String) : bytes (s ++ t) = bytes s ++ bytes t := by
  simp only [bytes_eq_flatMap, String.toList_append, List.flatMap_append]

theorem bytes_injective {s t : String} (h : bytes s = bytes t) : s = t :=
  String.toByteArray_inj.1 (ByteArray.ext (Array.toList_inj.1 h))

/-- No other character has the byte of a slash in it. -/
theorem eq_of_slash_mem_utf8EncodeChar {c : Char} (h : '/'.toUInt8 ∈ String.utf8EncodeChar c) :
    c = '/' := by
  have hbound : c.val.toNat < 0x110000 := by
    rcases c.valid with hvalid | ⟨-, hvalid⟩ <;> omega
  have hbyte : '/'.toUInt8.toNat = 47 := rfl
  have hcode : '/'.val.toNat = 47 := rfl
  refine Char.ext (UInt32.toNat_inj.1 ?_)
  rw [String.utf8EncodeChar] at h
  rw [hcode]
  generalize c.val.toNat = n at h hbound
  -- The bytes of longer characters are all above 127.
  split_ifs at h <;>
    simp only [List.mem_cons, List.not_mem_nil, or_false, ← UInt8.toNat_inj, hbyte,
      UInt8.toNat_ofNat'] at h <;>
    omega

theorem slash_not_mem_bytes {name : String} (h : '/' ∉ name.toList) :
    '/'.toUInt8 ∉ bytes name := by
  rw [bytes_eq_flatMap, List.mem_flatMap]
  rintro ⟨c, hc, hmem⟩
  exact h (eq_of_slash_mem_utf8EncodeChar hmem ▸ hc)

end Text

namespace FilePath

/-- Names that nothing has in a tree. -/
def reservedNames : List String :=
  ["", ".", ".."]

/-- A path as the files of a commit have it. -/
structure WellFormed (path : FilePath) : Prop where
  ne_nil : path ≠ []
  names : ∀ name ∈ path, name ∉ reservedNames ∧ '/' ∉ name.toList

variable {directory path : FilePath} {name : String}

theorem bytes_eq_intercalate (path : FilePath) :
    path.bytes = ['/'.toUInt8].intercalate (path.map Text.bytes) := by
  rw [bytes]
  induction path with
  | nil => rfl
  | cons name path ih =>
    cases path with
    | nil => simp
    | cons next path =>
      rw [String.intercalate_cons_cons, Text.bytes_append, Text.bytes_append, ih, List.map_cons,
        List.map_cons, List.map_cons, List.intercalate_cons_cons]
      rfl

/-- The parts of a joined text are those of its members. -/
theorem splitOn_intercalate_eq_flatMap {x : UInt8} {l : List (List UInt8)} (h : l ≠ []) :
    ([x].intercalate l).splitOn x = l.flatMap (List.splitOn x) := by
  induction l with
  | nil => exact absurd rfl h
  | cons a l ih =>
    cases l with
    | nil => simp
    | cons b l =>
      rw [List.intercalate_cons_cons, List.append_assoc, List.singleton_append,
        List.splitOn_append_cons_self, List.flatMap_cons, ih (List.cons_ne_nil b l)]

/-- A path at or below another one begins with the parts of that one. -/
theorem AtOrBelow.splitOn_prefix (h : directory.AtOrBelow path) :
    directory.bytes.splitOn '/'.toUInt8 <+: path.bytes.splitOn '/'.toUInt8 := by
  rcases h with heq | ⟨rest, hrest⟩
  · exact heq ▸ List.prefix_rfl
  · rw [← hrest, List.append_assoc, List.singleton_append, List.splitOn_append_cons_self]
    exact List.prefix_append _ _

theorem slash_not_mem_of_reserved : ∀ name ∈ reservedNames, '/' ∉ name.toList := by
  decide

/-- No file is at or below a path with an empty name in it, or with dots for a name. -/
theorem WellFormed.not_atOrBelow (h : path.WellFormed) (hname : name ∈ directory)
    (hreserved : name ∈ reservedNames) : ¬directory.AtOrBelow path := by
  intro hbelow
  have hpart : Text.bytes name ∈ directory.bytes.splitOn '/'.toUInt8 := by
    rw [bytes_eq_intercalate,
      splitOn_intercalate_eq_flatMap (by simpa using List.ne_nil_of_mem hname), List.flatMap_map,
      List.mem_flatMap]
    refine ⟨name, hname, ?_⟩
    have hslash := Text.slash_not_mem_bytes (slash_not_mem_of_reserved name hreserved)
    rw [List.splitOn_eq_singleton hslash]
    exact List.mem_singleton_self _
  have hparts : path.bytes.splitOn '/'.toUInt8 = path.map Text.bytes := by
    rw [bytes_eq_intercalate, List.splitOn_intercalate _ ?_ (by simpa using h.ne_nil)]
    intro l hl
    obtain ⟨name, hname, rfl⟩ := List.mem_map.1 hl
    exact Text.slash_not_mem_bytes (h.names name hname).2
  have hmem := hbelow.splitOn_prefix.subset hpart
  rw [hparts] at hmem
  obtain ⟨name', hname', heq⟩ := List.mem_map.1 hmem
  obtain rfl := Text.bytes_injective heq
  exact (h.names name' hname').1 hreserved

end FilePath

end Versioning
