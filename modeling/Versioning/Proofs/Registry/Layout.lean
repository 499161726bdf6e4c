import Versioning.Proofs.Registry.WriteOnce

/-!
# The text that shows a registry

The text has a section for each phase with versions, and in it a row for each of them
(`Registry.layout_sections`). The versions of a section stand below each other, behind a column
for the ids which is as wide, in characters, as the longest of them takes bytes
(`Registry.SectionOf`). As no character takes less than a byte, every id fits into the column
(`Text.length_le_utf8ByteSize`), whatever its characters are.
-/

namespace Versioning

/-- Every character of a text takes a byte at least. -/
theorem Text.length_le_utf8ByteSize (text : String) : text.length ≤ text.utf8ByteSize := by
  have hlength (l : List Char) : l.length ≤ (l.flatMap String.utf8EncodeChar).length := by
    induction l with
    | nil => exact Nat.le_refl 0
    | cons c l ih =>
      have hc : 0 < c.utf8Size := c.utf8Size_pos
      rw [List.flatMap_cons, List.length_append, List.length_cons, String.length_utf8EncodeChar]
      omega
  calc text.length
      = text.toList.length := String.length_toList.symm
    _ ≤ (Text.bytes text).length := by rw [Text.bytes_eq_flatMap]; exact hlength _
    _ = text.utf8ByteSize := rfl

namespace Registry

/-- A row shows a version behind a column of `width` characters. The text of the id stands there on
    the left, complete and with only spaces behind it, and the version starts at a character that is
    the same for all rows with this width. -/
structure IsRow (width : Nat) (id : ModuleId) (version : String) (row : List Char) : Prop where
  padded : ∃ spaces, id.text.length + spaces = width ∧
    row = [' ', ' '] ++ (id.text.toList ++ List.replicate spaces ' ') ++ [' ', ' '] ++
      version.toList ++ ['\n']
  aligned : row.drop (width + 4) = version.toList ++ ['\n']

/-- The section of a phase: its name in brackets on a line, and a row for each version of the phase,
    in the order of the entries. The column is as wide as the longest text of an id takes bytes. -/
structure IsSection (r : Registry) (phase : Phase) (width : Nat) (rows : List (List Char))
    (text : List Char) : Prop where
  attained : ∃ e ∈ r.phaseEntries phase, e.1.text.utf8ByteSize = width
  largest : ∀ e ∈ r.phaseEntries phase, e.1.text.utf8ByteSize ≤ width
  isRow : List.Forall₂ (fun e row => IsRow width e.1 e.2 row) (r.phaseEntries phase) rows
  text_eq : text = ['['] ++ phase.name.toList ++ [']', '\n'] ++ rows.flatten

theorem isRow_of_le {width : Nat} {id : ModuleId} (version : String)
    (h : id.text.utf8ByteSize ≤ width) :
    IsRow width id version ([' ', ' '] ++ padRight width id.text.toList ++ [' ', ' '] ++
      version.toList ++ ['\n']) := by
  have hfits : id.text.length ≤ width := Nat.le_trans (Text.length_le_utf8ByteSize _) h
  refine ⟨⟨width - id.text.length, by omega, ?_⟩, ?_⟩
  · rw [padRight, String.length_toList]
  · rw [List.append_assoc _ version.toList]
    refine List.drop_left' ?_
    simp only [padRight, List.length_append, List.length_cons, List.length_nil,
      List.length_replicate, String.length_toList]
    omega

/-- The largest of some numbers is one of them. -/
theorem foldl_max_mem {sizes : List Nat} (h : sizes ≠ []) :
    sizes.foldl Nat.max 0 ∈ sizes ∧ ∀ n ∈ sizes, n ≤ sizes.foldl Nat.max 0 := by
  have hmax : sizes.foldl Nat.max 0 = sizes.max h :=
    (List.foldl_max_eq_max h).trans (Nat.zero_max _)
  rw [hmax]
  exact ⟨List.max_mem h, fun n => List.le_max_of_mem⟩

/-- What is shown of a phase with versions is its section. -/
theorem isSection_phaseLayout {r : Registry} {phase : Phase} (h : r.phaseEntries phase ≠ []) :
    ∃ width rows, r.IsSection phase width rows (r.phaseLayout phase) := by
  have hsizes : (r.phaseEntries phase).map (fun e => e.1.text.utf8ByteSize) ≠ [] :=
    fun hnil => h (List.map_eq_nil_iff.1 hnil)
  obtain ⟨hmem, hle⟩ := foldl_max_mem hsizes
  rw [phaseLayout]
  generalize List.foldl Nat.max 0 _ = width at hmem hle
  refine ⟨width, (r.phaseEntries phase).map _, List.mem_map.1 hmem,
    fun e he => hle _ (List.mem_map_of_mem he), ?_, rfl⟩
  rw [List.forall₂_map_right_iff, List.forall₂_same]
  exact fun e he => isRow_of_le e.2 (hle _ (List.mem_map_of_mem he))

/-- A phase is listed with versions, -/
theorem phaseEntries_ne_nil {r : Registry} {phase : Phase} (h : phase ∈ r.phases) :
    r.phaseEntries phase ≠ [] := by
  obtain ⟨id, version, hget⟩ := mem_phases_iff.1 h
  exact List.ne_nil_of_mem (mem_phaseEntries_iff.2 hget)

/-- and none is listed exactly if the registry is empty. -/
theorem phases_eq_nil_iff {r : Registry} : r.phases = [] ↔ r.isEmpty = true := by
  rw [isEmpty_iff, List.eq_nil_iff_forall_not_mem]
  simp only [mem_phases_iff, not_exists, Option.eq_none_iff_forall_ne_some]
  exact ⟨fun h id phase version => h phase id version, fun h phase id version => h id phase version⟩

/-- The text that shows a registry has a section for each phase with versions, in their order, and
    in it a row for each of them, in the order of the bytes of the ids. It is empty exactly if there
    is no version. -/
theorem layout_sections (r : Registry) :
    (∃ sections : List (List Char), r.layout = String.ofList sections.flatten ∧
      List.Forall₂ (fun phase text => ∃ width rows, r.IsSection phase width rows text)
        r.phases sections) ∧
    (∀ phase, phase ∈ r.phases ↔ ∃ id version, r.get? id phase = some version) ∧
    (r.phases.Pairwise fun a b => a.rank < b.rank) ∧
    (∀ phase, (∀ id version, (id, version) ∈ r.phaseEntries phase ↔
        r.get? id phase = some version) ∧
      (r.phaseEntries phase).Pairwise fun a b => a.1.Before b.1) ∧
    (r.layout = "" ↔ r.isEmpty = true) := by
  refine ⟨⟨r.phases.map r.phaseLayout, rfl, ?_⟩, fun phase => mem_phases_iff,
    r.pairwise_rank_phases,
    fun phase => ⟨fun id version => mem_phaseEntries_iff, r.pairwise_phaseEntries phase⟩, ?_⟩
  · rw [List.forall₂_map_right_iff, List.forall₂_same]
    exact fun phase hphase => isSection_phaseLayout (phaseEntries_ne_nil hphase)
  · rw [← phases_eq_nil_iff, layout, String.ofList_eq_empty_iff, List.flatMap_eq_nil_iff]
    constructor
    · -- A section has a heading at least.
      intro hnil
      exact List.eq_nil_iff_forall_not_mem.2 fun phase hphase => nomatch hnil phase hphase
    · intro hnil phase hphase
      rw [hnil] at hphase
      cases hphase

/-- An id with an accent takes more bytes than it has characters, and the others are filled up. -/
example : (empty.after [⟨⟨"g", "a"⟩, .release, "1.0"⟩, ⟨⟨"g", "é"⟩, .release, "1.1"⟩]).layout =
    "[release]\n  g:a   1.0\n  g:é   1.1\n" := by decide +kernel

end Registry

end Versioning
