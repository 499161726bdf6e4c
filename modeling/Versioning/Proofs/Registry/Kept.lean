import Mathlib.Data.List.Nodup
import Versioning.Proofs.Module.Naming
import Versioning.Proofs.Toml.Documents
import Versioning.Registry

/-!
# The document that keeps a registry

The text that a registry is written as can be read, and what is read keeps the registry
(`Registry.KeptIn`): a table for each phase with versions, and in it a string for each
version, under the text of the id. Nothing is lost in it as long as the ids can be read from
their texts, which holds when they were read from texts in the first place
(`Registry.Filled`): then the names of the tables are read as phases, their keys as ids, and
the registry that is filled again with their strings is the same (`Registry.ofTable?`).
-/

namespace Versioning

namespace Registry

/-! ### Phases -/

theorem mem_phaseEntries_iff {r : Registry} {phase : Phase} {id : ModuleId} {version : String} :
    (id, version) ∈ r.phaseEntries phase ↔ r.get? id phase = some version := by
  rw [phaseEntries, OrderedMap.mem_entries_iff, get?_versions]

/-- In a phase no id comes twice. -/
theorem nodup_phaseEntries (r : Registry) (phase : Phase) :
    ((r.phaseEntries phase).map Prod.fst).Nodup :=
  (r.versions phase).nodup_keys

/-- A phase is listed if it has a version. -/
theorem mem_phases_iff {r : Registry} {phase : Phase} :
    phase ∈ r.phases ↔ ∃ id version, r.get? id phase = some version := by
  rw [phases, List.mem_map]
  constructor
  · rintro ⟨⟨phase, versions⟩, hmem, rfl⟩
    obtain ⟨hmem, hversions⟩ := List.mem_filter.1 hmem
    obtain ⟨id, version, hget⟩ := OrderedMap.exists_get? (by simpa using hversions)
    exact ⟨id, version, Option.bind_eq_some_iff.2
      ⟨versions, (OrderedMap.mem_entries_iff _ _ _).1 hmem, hget⟩⟩
  · rintro ⟨id, version, hget⟩
    obtain ⟨versions, hversions, hversion⟩ := Option.bind_eq_some_iff.1 hget
    refine ⟨(phase, versions), List.mem_filter.2 ⟨?_, ?_⟩, rfl⟩
    · exact (OrderedMap.mem_entries_iff _ _ _).2 hversions
    · simpa using OrderedMap.isEmpty_of_get? hversion

/-- The phases are listed in their order. -/
theorem pairwise_phases (r : Registry) : r.phases.Pairwise fun a b => compare a b = .lt :=
  List.pairwise_map.2 (r.byPhase.ascending.filter _)

theorem nodup_phases (r : Registry) : r.phases.Nodup :=
  r.pairwise_phases.imp fun hlt he => by
    rw [he] at hlt
    cases Std.ReflCmp.compare_self.symm.trans hlt

/-! ### The document -/

/-- The ids of the registry can be read from their texts. -/
def Legible (r : Registry) : Prop :=
  ∀ id phase version, r.get? id phase = some version → ModuleId.parse? id.text = some id

/-- A document keeps a registry: it has a table for each phase with a version, under the name of the
    phase, and in this table a string for each version of the phase, under the text of the id; and
    it has nothing else. -/
structure KeptIn (r : Registry) (table : Toml.Table) : Prop where
  names_nodup : (table.map Prod.fst).Nodup
  mem_names : ∀ name, name ∈ table.map Prod.fst ↔
    ∃ phase id version, r.get? id phase = some version ∧ name = phase.name
  entries : ∀ phase value, (phase.name, value) ∈ table → ∃ entries : Toml.Table,
    value = .table entries ∧ (entries.map Prod.fst).Nodup ∧
      ∀ key text, (key, text) ∈ entries ↔
        ∃ id version, r.get? id phase = some version ∧ key = id.text ∧ text = .string version

/-- The texts of the ids of a phase are different. -/
theorem nodup_texts {r : Registry} (h : r.Legible) (phase : Phase) :
    ((r.phaseEntries phase).map fun e => e.1.text).Nodup := by
  have hids := r.nodup_phaseEntries phase
  rw [List.Nodup, List.pairwise_map] at hids ⊢
  refine hids.imp_of_mem fun {e e'} he he' hne htext => hne ?_
  have hread := h e.1 phase e.2 (mem_phaseEntries_iff.1 he)
  have hread' := h e'.1 phase e'.2 (mem_phaseEntries_iff.1 he')
  exact Option.some.inj (hread.symm.trans (htext ▸ hread'))

theorem nodup_names (r : Registry) : (r.phases.map Phase.name).Nodup :=
  r.nodup_phases.map fun _ _ => Phase.name_injective

/-- The table of a phase in the document. -/
def phaseTable (r : Registry) (phase : Phase) : OrderedMap String String :=
  .ofList ((r.phaseEntries phase).map fun (id, version) => (id.text, version))

theorem mem_tables_iff {r : Registry} {name : String} {t : OrderedMap String String} :
    (name, t) ∈ r.tables.entries ↔
      ∃ phase ∈ r.phases, name = phase.name ∧ t = r.phaseTable phase := by
  have htables :
      r.tables = .ofList (r.phases.map fun phase => (phase.name, r.phaseTable phase)) := rfl
  have hkeys :
      ((r.phases.map fun phase => (phase.name, r.phaseTable phase)).map Prod.fst).Nodup := by
    rw [List.map_map]
    exact r.nodup_names
  rw [htables, (OrderedMap.entries_ofList_perm hkeys).mem_iff, List.mem_map]
  simp only [Prod.mk.injEq, eq_comm]

theorem mem_phaseTable_iff {r : Registry} (h : r.Legible) {phase : Phase} {key text : String} :
    (key, text) ∈ (r.phaseTable phase).entries ↔
      ∃ id, r.get? id phase = some text ∧ key = id.text := by
  have hkeys : (((r.phaseEntries phase).map fun (id, version) => (id.text, version)).map
      Prod.fst).Nodup := by
    rw [List.map_map]
    exact nodup_texts h phase
  rw [phaseTable, (OrderedMap.entries_ofList_perm hkeys).mem_iff, List.mem_map]
  constructor
  · rintro ⟨⟨id, version⟩, hmem, he⟩
    cases he
    exact ⟨id, mem_phaseEntries_iff.1 hmem, rfl⟩
  · rintro ⟨id, hget, rfl⟩
    exact ⟨(id, text), mem_phaseEntries_iff.2 hget, rfl⟩

/-- What the document of a registry is read as. -/
def document (r : Registry) : Toml.Table :=
  .ofTables (r.tables.entries.map fun (name, t) => (name, t.entries))

theorem names_document (r : Registry) : r.document.map Prod.fst = r.tables.keys := by
  rw [document, Toml.Table.ofTables, List.map_map, List.map_map]
  rfl

theorem mem_document_iff {r : Registry} {name : String} {value : Toml.Value} :
    (name, value) ∈ r.document ↔ ∃ phase ∈ r.phases, name = phase.name ∧
      value = .table (Toml.Table.ofStrings (r.phaseTable phase).entries) := by
  rw [document, Toml.Table.ofTables, List.map_map, List.mem_map]
  constructor
  · rintro ⟨⟨name, t⟩, hmem, he⟩
    obtain ⟨phase, hphase, rfl, rfl⟩ := mem_tables_iff.1 hmem
    cases he
    exact ⟨phase, hphase, rfl, rfl⟩
  · rintro ⟨phase, hphase, rfl, rfl⟩
    exact ⟨(phase.name, r.phaseTable phase), mem_tables_iff.2 ⟨phase, hphase, rfl, rfl⟩, rfl⟩

/-- The text of a registry is read as its document, -/
theorem ofText?_toToml (r : Registry) : Toml.Table.ofText? r.toToml = .ok r.document := by
  refine Toml.ofText?_writtenDocument ?_ fun t ht => ?_
  · rw [List.map_map]
    exact r.tables.nodup_keys
  · obtain ⟨⟨name, t⟩, -, rfl⟩ := List.mem_map.1 ht
    exact t.nodup_keys

/-- and this keeps the registry. -/
theorem keptIn_document {r : Registry} (h : r.Legible) : r.KeptIn r.document where
  names_nodup := by
    rw [names_document]
    exact r.tables.nodup_keys
  mem_names name := by
    rw [List.mem_map]
    constructor
    · rintro ⟨⟨name, value⟩, hmem, rfl⟩
      obtain ⟨phase, hphase, hname, -⟩ := mem_document_iff.1 hmem
      obtain ⟨id, version, hget⟩ := mem_phases_iff.1 hphase
      exact ⟨phase, id, version, hget, hname⟩
    · rintro ⟨phase, id, version, hget, rfl⟩
      exact ⟨_, mem_document_iff.2 ⟨phase, mem_phases_iff.2 ⟨id, version, hget⟩, rfl, rfl⟩, rfl⟩
  entries phase value hmem := by
    obtain ⟨phase', -, hname, rfl⟩ := mem_document_iff.1 hmem
    obtain rfl := Phase.name_injective hname
    refine ⟨_, rfl, ?_, fun key value => ?_⟩
    · rw [Toml.Table.ofStrings, List.map_map]
      exact (r.phaseTable phase).nodup_keys
    · rw [Toml.Table.ofStrings, List.mem_map]
      constructor
      · rintro ⟨⟨key, text⟩, hentry, he⟩
        cases he
        obtain ⟨id, hget, rfl⟩ := (mem_phaseTable_iff h).1 hentry
        exact ⟨id, text, hget, rfl, rfl⟩
      · rintro ⟨id, text, hget, rfl, rfl⟩
        exact ⟨(id.text, text), (mem_phaseTable_iff h).2 ⟨id, hget, rfl⟩, rfl⟩

/-! ### Reading a registry -/

/-- Records the strings of a table in a phase, for the ids that their keys are the texts of. -/
def recordStrings (phase : Phase) : Registry → Toml.Table → Option Registry
  | r, [] => some r
  | r, (key, .string version) :: rest => do
    let id ← ModuleId.parse? key
    let r ← (r.record id phase version).toOption
    recordStrings phase r rest
  | _, _ => none

/-- Records the tables of a document, each in the phase that it has the name of. -/
def recordTables : Registry → Toml.Table → Option Registry
  | r, [] => some r
  | r, (name, .table entries) :: rest => do
    let phase ← Phase.ofName? name
    let r ← recordStrings phase r entries
    recordTables r rest
  | _, _ => none

/-- The registry that a document keeps. -/
def ofTable? (table : Toml.Table) : Option Registry :=
  recordTables .empty table

/-- After a version is recorded, there is this one and the ones from before. -/
theorem get?_record_iff {r r' : Registry} {id : ModuleId} {phase : Phase} {version : String}
    (h : r.record id phase version = .ok r') {id' : ModuleId} {phase' : Phase} {version' : String} :
    r'.get? id' phase' = some version' ↔ r.get? id' phase' = some version' ∨
      phase' = phase ∧ id' = id ∧ version' = version := by
  by_cases hplace : phase' = phase ∧ id' = id
  · obtain ⟨rfl, rfl⟩ := hplace
    simp [get?_record_self h, (record_eq_ok_iff.1 h).1, eq_comm]
  · rw [get?_record_of_ne h hplace]
    exact ⟨.inl, fun h => h.resolve_right fun h => hplace ⟨h.1, h.2.1⟩⟩

/-- The strings of a table can be recorded in a phase: the keys are the texts of different ids, none
    of which has a version in the phase. -/
structure Recordable (r : Registry) (phase : Phase) (entries : Toml.Table) : Prop where
  keys_nodup : (entries.map Prod.fst).Nodup
  entry : ∀ key value, (key, value) ∈ entries → ∃ id version,
    ModuleId.parse? key = some id ∧ value = .string version ∧ r.get? id phase = none

/-- They are recorded, and nothing else is. -/
theorem Recordable.exists_recordStrings {phase : Phase} {r : Registry} {entries : Toml.Table}
    (h : r.Recordable phase entries) : ∃ r', recordStrings phase r entries = some r' ∧
      ∀ id p version, r'.get? id p = some version ↔ r.get? id p = some version ∨
        p = phase ∧ ∃ key, ModuleId.parse? key = some id ∧ (key, .string version) ∈ entries := by
  induction entries generalizing r with
  | nil => exact ⟨r, rfl, by simp⟩
  | cons e entries ih =>
    obtain ⟨key, value⟩ := e
    obtain ⟨id, version, hid, rfl, hfree⟩ := h.entry key value List.mem_cons_self
    obtain ⟨hkey, hkeys⟩ := List.nodup_cons.1 h.keys_nodup
    obtain ⟨r₁, hrecord⟩ : ∃ r₁, r.record id phase version = .ok r₁ :=
      ⟨_, record_eq_ok_iff.2 ⟨hfree, rfl⟩⟩
    -- The other strings are under other ids, which still have no version.
    have hothers : r₁.Recordable phase entries := by
      refine ⟨hkeys, fun key' value' hmem => ?_⟩
      obtain ⟨id', version', hid', rfl, hfree'⟩ := h.entry key' value' (List.mem_cons_of_mem _ hmem)
      have hne : id' ≠ id := by
        rintro rfl
        obtain rfl := (ModuleId.text_of_parse? hid).symm.trans (ModuleId.text_of_parse? hid')
        exact hkey (List.mem_map.2 ⟨_, hmem, rfl⟩)
      refine ⟨id', version', hid', rfl, ?_⟩
      rw [get?_record_of_ne hrecord fun he => hne he.2, hfree']
    obtain ⟨r', hr', hget⟩ := ih hothers
    refine ⟨r', ?_, fun id' p version' => ?_⟩
    · simp [recordStrings, hid, hrecord, Except.toOption, hr']
    · rw [hget, get?_record_iff hrecord, or_assoc]
      refine or_congr_right ⟨?_, ?_⟩
      · rintro (⟨rfl, rfl, rfl⟩ | ⟨rfl, key', hid', hmem⟩)
        · exact ⟨rfl, key, hid, List.mem_cons_self⟩
        · exact ⟨rfl, key', hid', List.mem_cons_of_mem _ hmem⟩
      · rintro ⟨rfl, key', hid', hmem⟩
        rcases List.mem_cons.1 hmem with he | hmem
        · cases he
          exact .inl ⟨rfl, Option.some.inj (hid'.symm.trans hid), rfl⟩
        · exact .inr ⟨rfl, key', hid', hmem⟩

/-- Tables with the names of different phases are recorded if their strings can be. -/
theorem exists_recordTables {r : Registry} {table : Toml.Table}
    (hnames : (table.map Prod.fst).Nodup)
    (h : ∀ name value, (name, value) ∈ table → ∃ (phase : Phase) (entries : Toml.Table),
      name = phase.name ∧ value = .table entries ∧ r.Recordable phase entries) :
    ∃ r', recordTables r table = some r' ∧
      ∀ id p version, r'.get? id p = some version ↔ r.get? id p = some version ∨
        ∃ entries, (p.name, .table entries) ∈ table ∧
          ∃ key, ModuleId.parse? key = some id ∧ (key, .string version) ∈ entries := by
  induction table generalizing r with
  | nil => exact ⟨r, rfl, by simp⟩
  | cons e table ih =>
    obtain ⟨name, value⟩ := e
    obtain ⟨phase, entries, rfl, rfl, hentries⟩ := h name value List.mem_cons_self
    obtain ⟨hname, hnames⟩ := List.nodup_cons.1 hnames
    obtain ⟨r₁, hrecord, hget₁⟩ := hentries.exists_recordStrings
    -- The other tables are for other phases, in which nothing was recorded.
    have hothers : ∀ name' value', (name', value') ∈ table →
        ∃ (phase' : Phase) (entries' : Toml.Table),
          name' = phase'.name ∧ value' = .table entries' ∧ r₁.Recordable phase' entries' := by
      intro name' value' hmem
      obtain ⟨phase', entries', rfl, rfl, hentries'⟩ :=
        h name' value' (List.mem_cons_of_mem _ hmem)
      have hne : phase' ≠ phase := by
        rintro rfl
        exact hname (List.mem_map.2 ⟨_, hmem, rfl⟩)
      refine ⟨phase', entries', rfl, rfl, hentries'.keys_nodup, fun key value hmem' => ?_⟩
      obtain ⟨id, version, hid, rfl, hfree⟩ := hentries'.entry key value hmem'
      refine ⟨id, version, hid, rfl, Option.eq_none_iff_forall_ne_some.2 fun v hv => ?_⟩
      rcases (hget₁ _ _ _).1 hv with hv | ⟨hphase, -⟩
      · cases hfree.symm.trans hv
      · exact hne hphase
    obtain ⟨r', hr', hget⟩ := ih hnames hothers
    refine ⟨r', ?_, fun id p version => ?_⟩
    · simp [recordTables, Phase.ofName?_name, hrecord, hr']
    · rw [hget, hget₁, or_assoc]
      refine or_congr_right ⟨?_, ?_⟩
      · rintro (⟨rfl, hkey⟩ | ⟨entries', hmem, hkey⟩)
        · exact ⟨entries, List.mem_cons_self, hkey⟩
        · exact ⟨entries', List.mem_cons_of_mem _ hmem, hkey⟩
      · rintro ⟨entries', hmem, hkey⟩
        rcases List.mem_cons.1 hmem with he | hmem
        · obtain ⟨hname, hvalue⟩ := Prod.mk.inj he
          cases hvalue
          exact .inl ⟨Phase.name_injective hname, hkey⟩
        · exact .inr ⟨entries', hmem, hkey⟩

/-- A registry is read back from a document that keeps it. -/
theorem ofTable?_of_keptIn {r : Registry} (h : r.Legible) {table : Toml.Table}
    (hkept : r.KeptIn table) : ofTable? table = some r := by
  have htables : ∀ name value, (name, value) ∈ table →
      ∃ (phase : Phase) (entries : Toml.Table),
        name = phase.name ∧ value = .table entries ∧ empty.Recordable phase entries := by
    intro name value hmem
    obtain ⟨phase, -, -, -, rfl⟩ := (hkept.mem_names name).1 (List.mem_map.2 ⟨_, hmem, rfl⟩)
    obtain ⟨entries, rfl, hkeys, hentries⟩ := hkept.entries phase value hmem
    refine ⟨phase, entries, rfl, rfl, hkeys, fun key value hmem => ?_⟩
    obtain ⟨id, version, hget, rfl, rfl⟩ := (hentries key value).1 hmem
    exact ⟨id, version, h id phase version hget, rfl, rfl⟩
  obtain ⟨r', hr', hget⟩ := exists_recordTables hkept.names_nodup htables
  rw [ofTable?, hr']
  refine congrArg some (ext_get? fun id phase => Option.ext fun version => ?_)
  rw [hget, get?_empty]
  constructor
  · rintro (hnone | ⟨entries, hmem, key, hid, hstring⟩)
    · cases hnone
    · obtain ⟨_, he, -, hentries⟩ := hkept.entries phase _ hmem
      cases he
      obtain ⟨id', version', hget', rfl, he⟩ := (hentries key _).1 hstring
      cases he
      cases (h id' phase _ hget').symm.trans hid
      exact hget'
  · intro hget'
    obtain ⟨⟨name, value⟩, hmem, rfl⟩ := List.mem_map.1
      ((hkept.mem_names phase.name).2 ⟨phase, id, version, hget', rfl⟩)
    obtain ⟨entries, rfl, -, hentries⟩ := hkept.entries phase value hmem
    have hstring := (hentries id.text (.string version)).2 ⟨id, version, hget', rfl, rfl⟩
    exact .inr ⟨entries, hmem, id.text, h id phase version hget', hstring⟩

/-! ### The registries of releases -/

/-- The registries that come about when versions are recorded for ids that were read. -/
inductive Filled : Registry → Prop where
  | empty : Filled .empty
  | record {r r' : Registry} {key : String} {id : ModuleId} {phase : Phase} {version : String}
      (h : Filled r) (hid : ModuleId.parse? key = some id)
      (hrecord : r.record id phase version = .ok r') : Filled r'

theorem Filled.legible {r : Registry} (h : r.Filled) : r.Legible := by
  induction h with
  | empty => nofun
  | @record r r' key id phase version _ hid hrecord ih =>
    intro id' phase' version' hget
    rcases (get?_record_iff hrecord).1 hget with hget | ⟨-, rfl, -⟩
    · exact ih id' phase' version' hget
    · exact ModuleId.parse?_text hid

/-- The text of a registry loses nothing: it can be read, the document that is read holds the
    versions under the names of their phases and the texts of their ids, and nothing else, and the
    registry can be told from it. -/
theorem toToml_lossless {r : Registry} (h : r.Filled) :
    ∃ table, Toml.Table.ofText? r.toToml = .ok table ∧ r.KeptIn table ∧ ofTable? table = some r :=
  ⟨r.document, r.ofText?_toToml, keptIn_document h.legible,
    ofTable?_of_keptIn h.legible (keptIn_document h.legible)⟩

/-- Neither quotes, line breaks and control characters in a version are lost, nor quotes in an
    id. -/
theorem toToml_lossless_of_quotes : ∃ r r' : Registry,
    empty.record ⟨"g", "a\"b"⟩ .release "1.0 \"x\"\n'''y'''\\\x01" = .ok r ∧
      r.record ⟨"é", "a"⟩ .workingCopy "" = .ok r' ∧
      ∃ table, Toml.Table.ofText? r'.toToml = .ok table ∧ r'.KeptIn table ∧
        ofTable? table = some r' := by
  have hquoted : ModuleId.parse? "g:a\"b" = some ⟨"g", "a\"b"⟩ := by decide +kernel
  have haccent : ModuleId.parse? "é:a" = some ⟨"é", "a"⟩ := by decide +kernel
  obtain ⟨r, hr⟩ : ∃ r, empty.record ⟨"g", "a\"b"⟩ .release "1.0 \"x\"\n'''y'''\\\x01" = .ok r :=
    ⟨_, rfl⟩
  have hfree : r.get? ⟨"é", "a"⟩ .workingCopy = none := get?_record_of_ne hr (by decide)
  obtain ⟨r', hr'⟩ : ∃ r', r.record ⟨"é", "a"⟩ .workingCopy "" = .ok r' :=
    ⟨_, record_eq_ok_iff.2 ⟨hfree, rfl⟩⟩
  exact ⟨r, r', hr, hr', toToml_lossless (.record (.record .empty hquoted hr) haccent hr')⟩

end Registry

end Versioning
