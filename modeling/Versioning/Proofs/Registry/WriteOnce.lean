import Versioning.Proofs.Registry.Kept
import Versioning.Proofs.Text.ByteOrder

/-!
# The registry is written once

A registry that is filled by a sequence of calls, of which some may be refused, is the map from
each place to the version of the first call for it (`Registry.write_once`): a call is accepted
exactly if it is the first one for its place, and one that is refused changes nothing. What the
registry lists, phase by phase and in the order of the bytes of the ids
(`ModuleId.Before`), is this map.
-/

namespace Versioning

/-- An id comes before another one in the order of the bytes of the group, and then of the
    artifact. -/
def ModuleId.Before (a b : ModuleId) : Prop :=
  Text.bytes a.group < Text.bytes b.group ∨
    a.group = b.group ∧ Text.bytes a.artifact < Text.bytes b.artifact

theorem ModuleId.compare_eq_lt_iff {a b : ModuleId} : compare a b = .lt ↔ a.Before b := by
  have hthen : compare a b = (compare a.group b.group).then (compare a.artifact b.artifact) := rfl
  rw [hthen, Ordering.then_eq_lt, Text.compare_eq_lt_iff, Text.compare_eq_lt_iff,
    Std.LawfulEqOrd.compare_eq_iff_eq, Before]

namespace Registry

/-- In a phase the ids come in the order of their bytes. -/
theorem pairwise_phaseEntries (r : Registry) (phase : Phase) :
    (r.phaseEntries phase).Pairwise fun a b => a.1.Before b.1 :=
  (r.versions phase).ascending.imp ModuleId.compare_eq_lt_iff.1

/-- The phases come in their order. -/
theorem pairwise_rank_phases (r : Registry) : r.phases.Pairwise fun a b => a.rank < b.rank :=
  r.pairwise_phases.imp Nat.compare_eq_lt.1

/-- A registry without versions is the one before anything is resolved. -/
theorem isEmpty_iff {r : Registry} :
    r.isEmpty = true ↔ ∀ id phase, r.get? id phase = none := by
  rw [isEmpty, List.all_eq_true]
  constructor
  · intro h id phase
    rw [get?, Option.bind_eq_none_iff]
    intro versions hversions
    have hempty := h (phase, versions) ((OrderedMap.mem_entries_iff _ _ _).2 hversions)
    cases (r.occupied phase versions hversions).symm.trans hempty
  · rintro h ⟨phase, versions⟩ hmem
    have hversions := (OrderedMap.mem_entries_iff _ _ _).1 hmem
    obtain ⟨id, version, hget⟩ := OrderedMap.exists_get? (r.occupied phase versions hversions)
    cases (h id phase).symm.trans (Option.bind_eq_some_iff.2 ⟨versions, hversions, hget⟩)

/-- An attempt to write the version of a module in a phase. -/
structure Call where
  id : ModuleId
  phase : Phase
  version : String

/-- The place that a call is for. -/
def Call.slot (c : Call) : Slot :=
  ⟨c.phase, c.id⟩

/-- What a call comes to, and the registry behind it. -/
def call (r : Registry) (c : Call) : Except ReleaseError Unit × Registry :=
  r.write c.id c.phase c.version

/-- The registry behind some calls, each of which is accepted or refused. -/
def after (r : Registry) (calls : List Call) : Registry :=
  calls.foldl (fun r c => (r.call c).2) r

/-- The version of the first call for a place. -/
def first? (calls : List Call) (slot : Slot) : Option String :=
  (calls.find? fun c => c.slot = slot).map (·.version)

theorem first?_eq_none_iff {calls : List Call} {slot : Slot} :
    first? calls slot = none ↔ ∀ c ∈ calls, c.slot ≠ slot := by
  simp [first?]

/-- A call is accepted exactly if its place is free. -/
theorem call_eq_ok_iff {r : Registry} {c : Call} :
    (r.call c).1 = .ok () ↔ r.get? c.id c.phase = none := by
  rw [call]
  cases h : r.get? c.id c.phase with
  | none => simp [write_of_free c.version h]
  | some existing => simp [write_of_taken c.version h]

/-- What a place holds is kept, and one that is free gets the version of the call. -/
theorem get?_call_self (r : Registry) (c : Call) :
    (r.call c).2.get? c.id c.phase = (r.get? c.id c.phase).or (some c.version) := by
  rw [call]
  cases h : r.get? c.id c.phase with
  | none => rw [write_of_free c.version h, get?_withVersion_self, Option.none_or]
  | some existing => rw [write_of_taken c.version h, h, Option.some_or]

/-- The other places stay as they were. -/
theorem get?_call_of_ne (r : Registry) {c : Call} {id : ModuleId} {phase : Phase}
    (hne : c.slot ≠ ⟨phase, id⟩) : (r.call c).2.get? id phase = r.get? id phase := by
  rw [call]
  cases h : r.get? c.id c.phase with
  | none =>
    rw [write_of_free c.version h]
    refine get?_withVersion_of_ne r c.version fun hplace => hne ?_
    rw [hplace.1, hplace.2, Call.slot]
  | some existing => rw [write_of_taken c.version h]

/-- Behind some calls a place holds what it held before them, or else the version of the first call
    for it. -/
theorem get?_after (r : Registry) (calls : List Call) (id : ModuleId) (phase : Phase) :
    (r.after calls).get? id phase = (r.get? id phase).or (first? calls ⟨phase, id⟩) := by
  induction calls generalizing r with
  | nil => exact (Option.or_none).symm
  | cons c calls ih =>
    rw [after, List.foldl_cons, ← after, ih]
    by_cases hslot : c.slot = ⟨phase, id⟩
    · -- The call decides the place, and the later ones do not count.
      obtain ⟨rfl, rfl⟩ := Slot.mk.inj hslot
      have hfirst : first? (c :: calls) c.slot = some c.version := by simp [first?]
      rw [get?_call_self, ← Call.slot, hfirst, Option.or_assoc, Option.some_or]
    · have hfirst : first? (c :: calls) ⟨phase, id⟩ = first? calls ⟨phase, id⟩ := by
        simp [first?, hslot]
      rw [get?_call_of_ne r hslot, hfirst]

theorem get?_after_empty (calls : List Call) (id : ModuleId) (phase : Phase) :
    (empty.after calls).get? id phase = first? calls ⟨phase, id⟩ := by
  rw [get?_after, get?_empty, Option.none_or]

/-- What a call comes to behind others: it is accepted if none of these was for its place. -/
theorem call_after_eq_ok_iff {earlier : List Call} {c : Call} :
    ((empty.after earlier).call c).1 = .ok () ↔ ∀ c' ∈ earlier, c'.slot ≠ c.slot := by
  rw [call_eq_ok_iff, get?_after_empty, ← Call.slot, first?_eq_none_iff]

/-- Otherwise the version that is there is given as the reason, and nothing is changed. -/
theorem call_after_of_first {earlier : List Call} {c : Call} {existing : String}
    (h : first? earlier c.slot = some existing) :
    (empty.after earlier).call c =
      (.error (.registry (.alreadySet c.phase c.id.text existing)), empty.after earlier) :=
  write_of_taken c.version ((get?_after_empty _ _ _).trans h)

/-- The phases that are listed are those of the calls. -/
theorem mem_phases_after_iff {calls : List Call} {phase : Phase} :
    phase ∈ (empty.after calls).phases ↔ ∃ c ∈ calls, c.phase = phase := by
  simp only [mem_phases_iff, get?_after_empty]
  constructor
  · rintro ⟨id, version, hversion⟩
    obtain ⟨c, hfind, -⟩ := Option.map_eq_some_iff.1 hversion
    have hslot : c.slot = ⟨phase, id⟩ := by simpa using List.find?_some hfind
    exact ⟨c, List.mem_of_find?_eq_some hfind, congrArg Slot.phase hslot⟩
  · rintro ⟨c, hc, rfl⟩
    have hsome : first? calls c.slot ≠ none := fun h => first?_eq_none_iff.1 h c hc rfl
    obtain ⟨version, hversion⟩ := Option.ne_none_iff_exists'.1 hsome
    exact ⟨c.id, version, hversion⟩

/-- A registry is empty as long as there was no call. -/
theorem isEmpty_after_iff {calls : List Call} :
    (empty.after calls).isEmpty = true ↔ calls = [] := by
  simp only [isEmpty_iff, get?_after_empty]
  constructor
  · intro hfree
    rcases calls with _ | ⟨c, calls⟩
    · rfl
    · exact absurd rfl (first?_eq_none_iff.1 (hfree c.id c.phase) c List.mem_cons_self)
  · rintro rfl id phase
    rfl

/-- A registry that is filled by calls is the map from each place to the version of the first call
    for it. A call is accepted exactly if no earlier one was for its place, and otherwise the version
    that is there is given as the reason, and the registry stays as it is. What is listed are the
    places with their versions, the phases in their order and the ids of a phase in the order of
    their bytes. -/
theorem write_once (calls : List Call) :
    let filled := empty.after calls
    (∀ earlier c later, calls = earlier ++ c :: later →
      let r := empty.after earlier
      ((r.call c).1 = .ok () ↔ ∀ c' ∈ earlier, c'.slot ≠ c.slot) ∧
      ((r.call c).1 = .ok () ∨ (r.call c).2 = r ∧ ∃ existing,
        first? earlier c.slot = some existing ∧
          (r.call c).1 = .error (.registry (.alreadySet c.phase c.id.text existing)))) ∧
    (∀ id phase, filled.get? id phase = first? calls ⟨phase, id⟩) ∧
    (∀ phase, (∀ id version, (id, version) ∈ filled.phaseEntries phase ↔
        first? calls ⟨phase, id⟩ = some version) ∧
      (filled.phaseEntries phase).Pairwise fun a b => a.1.Before b.1) ∧
    (∀ phase, phase ∈ filled.phases ↔ ∃ c ∈ calls, c.phase = phase) ∧
    (filled.phases.Pairwise fun a b => a.rank < b.rank) ∧
    (filled.isEmpty = true ↔ calls = []) := by
  intro filled
  refine ⟨fun earlier c later _ => ⟨call_after_eq_ok_iff, ?_⟩, get?_after_empty calls,
    fun phase => ⟨fun id version => ?_, filled.pairwise_phaseEntries phase⟩,
    fun phase => mem_phases_after_iff, filled.pairwise_rank_phases, isEmpty_after_iff⟩
  · cases hfirst : first? earlier c.slot with
    | none => exact .inl (call_after_eq_ok_iff.2 (first?_eq_none_iff.1 hfirst))
    | some existing =>
      rw [call_after_of_first hfirst]
      exact .inr ⟨rfl, existing, rfl, rfl⟩
  · rw [mem_phaseEntries_iff, get?_after_empty]

end Registry

end Versioning
