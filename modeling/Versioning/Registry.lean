import Versioning.Error
import Versioning.Module
import Versioning.OrderedMap
import Versioning.Toml.Writer

/-!
# The registry of resolved versions

The versions that a release gives to its modules, by phase and module. Each of them
is written once; a second attempt fails and changes nothing. The entries are in
the order of the phases, and in the order of the ids within a phase.

* `Registry.write` and `Registry.get?` write and read a version, and `Registry.record` is the
  registry after a version that was written;
* `Registry.toToml` is the document that is kept, `Registry.layout` the text that is shown.
-/

namespace Versioning

/-- The place of a version in the registry. -/
structure Slot where
  phase : Phase
  id : ModuleId
  deriving DecidableEq, Repr

namespace Slot

/-- Slots are ordered by phase, and by module within a phase. -/
instance : Ord Slot :=
  ⟨compareLex (compareOn phase) (compareOn id)⟩

instance : Std.TransOrd Slot :=
  inferInstanceAs (Std.TransCmp (compareLex (compareOn phase) (compareOn id)))

instance : Std.LawfulEqOrd Slot where
  eq_of_compare {a b} h := by
    obtain ⟨hp, hi⟩ := Ordering.then_eq_eq.1 (show (compare a.phase b.phase).then
      (compare a.id b.id) = .eq from h)
    cases a; cases b
    simp only [Std.LawfulEqOrd.compare_eq_iff_eq] at hp hi
    rw [hp, hi]

end Slot

/-- The versions of a phase, by the ids of the modules. -/
abbrev Versions :=
  OrderedMap ModuleId String

/-- The versions of a release, for each phase that has any. -/
structure Registry where
  byPhase : OrderedMap Phase Versions
  /-- A phase has an entry only together with a version. -/
  occupied : ∀ phase versions, byPhase.get? phase = some versions → versions.isEmpty = false

namespace Registry

/-- Two registries with the same entries are equal. -/
theorem ext_byPhase {a b : Registry} (h : a.byPhase = b.byPhase) : a = b := by
  cases a; cases b; cases h; rfl

instance : DecidableEq Registry := fun a b =>
  if h : a.byPhase = b.byPhase then .isTrue (ext_byPhase h)
  else .isFalse fun hab => h (by rw [hab])

/-- The registry before anything is resolved. -/
def empty : Registry :=
  ⟨.empty, nofun⟩

instance : Inhabited Registry := ⟨empty⟩

/-- The version of a module in a phase. -/
def get? (r : Registry) (id : ModuleId) (phase : Phase) : Option String :=
  (r.byPhase.get? phase).bind (·.get? id)

/-- The versions of a phase, none of them if it has no entry. -/
def versions (r : Registry) (phase : Phase) : Versions :=
  (r.byPhase.get? phase).getD .empty

theorem get?_versions (r : Registry) (id : ModuleId) (phase : Phase) :
    (r.versions phase).get? id = r.get? id phase := by
  rw [versions, get?]
  cases r.byPhase.get? phase <;> rfl

/-- The registry with other versions in a phase. -/
def withVersions (r : Registry) (phase : Phase) (versions : Versions)
    (h : versions.isEmpty = false) : Registry where
  byPhase := r.byPhase.insert phase versions
  occupied phase' versions' hget := by
    by_cases hphase : phase' = phase
    · rw [hphase, OrderedMap.get?_insert_self] at hget
      cases hget
      exact h
    · rw [OrderedMap.get?_insert_of_ne _ _ hphase] at hget
      exact r.occupied phase' versions' hget

/-- The registry with one more version, instead of the one that the module had. -/
def withVersion (r : Registry) (id : ModuleId) (phase : Phase) (version : String) : Registry :=
  r.withVersions phase ((r.versions phase).insert id version) (OrderedMap.isEmpty_insert _ _ _)

/-- Writes the version of a module in a phase, unless there is one. The phase is given its entry
    before the id is looked up there, and so also if the version is refused. -/
def write (r : Registry) (id : ModuleId) (phase : Phase) (version : String) :
    Except ReleaseError Unit × Registry :=
  match h : (r.versions phase).get? id with
  | some existing =>
    (.error (.registry (.alreadySet phase id.text existing)),
      r.withVersions phase (r.versions phase) (OrderedMap.isEmpty_of_get? h))
  | none => (.ok (), r.withVersion id phase version)

/-- The registry after a version was written, or why it was not. -/
def record (r : Registry) (id : ModuleId) (phase : Phase) (version : String) :
    Except ReleaseError Registry :=
  match r.write id phase version with
  | (.ok (), written) => .ok written
  | (.error e, _) => .error e

/-- The versions that a registry finds for a phase are those of the entry. -/
theorem byPhase_get?_eq_some {r : Registry} {id : ModuleId} {phase : Phase} {version : String}
    (h : r.get? id phase = some version) : r.byPhase.get? phase = some (r.versions phase) := by
  obtain ⟨versions, hversions, -⟩ := Option.bind_eq_some_iff.1 h
  rw [Registry.versions, hversions, Option.getD_some]

/-- Two registries with the same versions are equal. -/
theorem ext_get? {a b : Registry} (h : ∀ id phase, a.get? id phase = b.get? id phase) : a = b := by
  have hversions (phase : Phase) : a.versions phase = b.versions phase :=
    OrderedMap.ext_get? fun id => by rw [get?_versions, get?_versions, h]
  have hentry {a b : Registry} (hab : ∀ phase, a.versions phase = b.versions phase)
      {phase : Phase} {versions : Versions} (hget : a.byPhase.get? phase = some versions) :
      b.byPhase.get? phase = some versions := by
    -- The entry holds a version, which is found in the other registry as well.
    obtain ⟨id, version, hversion⟩ := OrderedMap.exists_get? (a.occupied phase versions hget)
    have hsame : versions = b.versions phase := by
      rw [← hab, Registry.versions, hget, Option.getD_some]
    rw [hsame] at hversion ⊢
    exact byPhase_get?_eq_some ((b.get?_versions id phase).symm.trans hversion)
  exact ext_byPhase (OrderedMap.ext_get? fun phase => Option.ext fun versions =>
    ⟨hentry hversions, hentry fun phase => (hversions phase).symm⟩)

@[simp] theorem get?_empty (id : ModuleId) (phase : Phase) : empty.get? id phase = none := rfl

/-- What was put there is found. -/
theorem get?_withVersion_self (r : Registry) (id : ModuleId) (phase : Phase) (version : String) :
    (r.withVersion id phase version).get? id phase = some version := by
  rw [get?, withVersion, withVersions, OrderedMap.get?_insert_self, Option.bind_some,
    OrderedMap.get?_insert_self]

/-- The other places stay as they were. -/
theorem get?_withVersion_of_ne (r : Registry) {id other : ModuleId} {phase phase' : Phase}
    (version : String) (hne : ¬(phase' = phase ∧ other = id)) :
    (r.withVersion id phase version).get? other phase' = r.get? other phase' := by
  by_cases hphase : phase' = phase
  · subst hphase
    rw [get?, withVersion, withVersions, OrderedMap.get?_insert_self, Option.bind_some,
      OrderedMap.get?_insert_of_ne _ _ fun hid => hne ⟨rfl, hid⟩, get?_versions]
  · rw [get?, withVersion, withVersions, OrderedMap.get?_insert_of_ne _ _ hphase, get?]

/-- A version is written if its place is free. -/
theorem write_of_free {r : Registry} {id : ModuleId} {phase : Phase} (version : String)
    (h : r.get? id phase = none) :
    r.write id phase version = (.ok (), r.withVersion id phase version) := by
  rw [write]
  split
  · next hget => cases (r.get?_versions id phase ▸ hget).symm.trans h
  · rfl

/-- A version is refused if its place is taken, and the registry is the same as before: the phase
    had its entry. -/
theorem write_of_taken {r : Registry} {id : ModuleId} {phase : Phase} {existing : String}
    (version : String) (h : r.get? id phase = some existing) :
    r.write id phase version =
      (.error (.registry (.alreadySet phase id.text existing)), r) := by
  rw [write]
  split
  · next hget =>
    cases (r.get?_versions id phase ▸ hget).symm.trans h
    exact congrArg (Prod.mk _) (ext_byPhase (OrderedMap.insert_of_get? (byPhase_get?_eq_some h)))
  · next hget => cases (r.get?_versions id phase ▸ hget).symm.trans h

/-- A version is written exactly if its place is free. -/
theorem record_eq_ok_iff {r r' : Registry} {id : ModuleId} {phase : Phase} {version : String} :
    r.record id phase version = .ok r' ↔
      r.get? id phase = none ∧ r' = r.withVersion id phase version := by
  rw [record]
  cases h : r.get? id phase with
  | none => simp [write_of_free version h, eq_comm]
  | some existing => simp [write_of_taken version h]

/-- A version is refused exactly if its place is taken. -/
theorem record_eq_error_iff {r : Registry} {id : ModuleId} {phase : Phase} {version : String}
    {e : ReleaseError} :
    r.record id phase version = .error e ↔
      ∃ existing, r.get? id phase = some existing ∧
        e = .registry (.alreadySet phase id.text existing) := by
  rw [record]
  cases h : r.get? id phase with
  | none => simp [write_of_free version h]
  | some existing => simp [write_of_taken version h, eq_comm]

/-- What was written can be read. -/
theorem get?_record_self {r r' : Registry} {id : ModuleId} {phase : Phase} {version : String}
    (h : r.record id phase version = .ok r') : r'.get? id phase = some version := by
  obtain ⟨-, rfl⟩ := record_eq_ok_iff.1 h
  exact get?_withVersion_self _ _ _ _

/-- The other places stay as they were. -/
theorem get?_record_of_ne {r r' : Registry} {id other : ModuleId} {phase phase' : Phase}
    {version : String} (h : r.record id phase version = .ok r')
    (hne : ¬(phase' = phase ∧ other = id)) : r'.get? other phase' = r.get? other phase' := by
  obtain ⟨-, rfl⟩ := record_eq_ok_iff.1 h
  exact get?_withVersion_of_ne r version hne

/-- The versions by their places, phase by phase. -/
def slots (r : Registry) : OrderedMap Slot String where
  entries := r.byPhase.entries.flatMap fun (phase, versions) =>
    versions.entries.map fun (id, version) => (⟨phase, id⟩, version)
  ascending := by
    refine List.pairwise_flatMap.2 ⟨fun (phase, versions) _ => ?_, ?_⟩
    · refine List.pairwise_map.2 (versions.ascending.imp fun hlt => ?_)
      exact Ordering.then_eq_lt.2 (.inr ⟨Std.ReflCmp.compare_self, hlt⟩)
    · refine r.byPhase.ascending.imp fun hlt e he e' he' => ?_
      obtain ⟨_, -, rfl⟩ := List.mem_map.1 he
      obtain ⟨_, -, rfl⟩ := List.mem_map.1 he'
      exact Ordering.then_eq_lt.2 (.inl hlt)

/-- A place holds the version of its module in its phase. -/
theorem get?_slots (r : Registry) (id : ModuleId) (phase : Phase) :
    r.slots.get? ⟨phase, id⟩ = r.get? id phase := by
  refine Option.ext fun version => ?_
  rw [← OrderedMap.mem_entries_iff, slots, List.mem_flatMap]
  constructor
  · rintro ⟨⟨phase', versions⟩, hphase, hmem⟩
    obtain ⟨⟨id', version'⟩, hversion, he⟩ := List.mem_map.1 hmem
    cases he
    exact Option.bind_eq_some_iff.2 ⟨versions, (OrderedMap.mem_entries_iff _ _ _).1 hphase,
      (OrderedMap.mem_entries_iff _ _ _).1 hversion⟩
  · intro h
    obtain ⟨versions, hphase, hversion⟩ := Option.bind_eq_some_iff.1 h
    exact ⟨(phase, versions), (OrderedMap.mem_entries_iff _ _ _).2 hphase,
      List.mem_map.2 ⟨(id, version), (OrderedMap.mem_entries_iff _ _ _).2 hversion, rfl⟩⟩

/-- A version that is written takes one more place. -/
theorem keys_record_perm {r r' : Registry} {id : ModuleId} {phase : Phase} {version : String}
    (h : r.record id phase version = .ok r') : r'.slots.keys.Perm (⟨phase, id⟩ :: r.slots.keys) := by
  have hfree : ⟨phase, id⟩ ∉ r.slots.keys := by
    rw [OrderedMap.mem_keys_iff, get?_slots, (record_eq_ok_iff.1 h).1]
    nofun
  refine (List.perm_ext_iff_of_nodup r'.slots.nodup_keys
    (List.nodup_cons.2 ⟨hfree, r.slots.nodup_keys⟩)).2 fun ⟨phase', id'⟩ => ?_
  rw [List.mem_cons, OrderedMap.mem_keys_iff, OrderedMap.mem_keys_iff, get?_slots, get?_slots]
  by_cases hplace : phase' = phase ∧ id' = id
  · obtain ⟨rfl, rfl⟩ := hplace
    exact iff_of_true ⟨version, get?_record_self h⟩ (.inl rfl)
  · rw [get?_record_of_ne h hplace, Slot.mk.injEq, or_iff_right hplace]

/-- The modules and versions of a phase, in the order of the ids. -/
def phaseEntries (r : Registry) (phase : Phase) : List (ModuleId × String) :=
  (r.versions phase).entries

/-- The phases that have a version. -/
def phases (r : Registry) : List Phase :=
  (r.byPhase.entries.filter fun e => !e.2.isEmpty).map Prod.fst

/-- Whether no version was recorded. -/
def isEmpty (r : Registry) : Bool :=
  r.byPhase.entries.all fun e => e.2.isEmpty

/-- The tables of the document: one per phase, each with the versions by the texts of the ids,
    all in the order of their names. -/
def tables (r : Registry) : OrderedMap String (OrderedMap String String) :=
  .ofList (r.phases.map fun phase =>
    (phase.name, .ofList ((r.phaseEntries phase).map fun (id, version) => (id.text, version))))

/-- The document that keeps the registry. -/
def toToml (r : Registry) : String :=
  Toml.writtenDocument (r.tables.entries.map fun (name, table) => (name, table.entries))

/-- A text filled up with spaces on the right to at least `width` characters. -/
def padRight (width : Nat) (text : List Char) : List Char :=
  text ++ List.replicate (width - text.length) ' '

/-- The section of a phase in the text that is shown: a heading, and a line per module with the
    versions below each other. The column is as wide as the longest id takes bytes. -/
def phaseLayout (r : Registry) (phase : Phase) : List Char :=
  let entries := r.phaseEntries phase
  let width := (entries.map fun e => e.1.text.utf8ByteSize).foldl Nat.max 0
  ['['] ++ phase.name.toList ++ [']', '\n'] ++ entries.flatMap fun (id, version) =>
    [' ', ' '] ++ padRight width id.text.toList ++ [' ', ' '] ++ version.toList ++ ['\n']

/-- The text that shows the registry, phase by phase. -/
def layout (r : Registry) : String :=
  String.ofList (r.phases.flatMap r.phaseLayout)

end Registry

end Versioning
