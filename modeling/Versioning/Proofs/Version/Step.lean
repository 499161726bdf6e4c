import Versioning.Version

/-!
# The step to the next version

Versions are compared by major, minor and patch number, from left to right; a number that is
left out is zero (`Version.triple`). The step of a level makes one of them larger by one and
sets those after it to zero (`Version.raise`), however many were written
(`Version.triple_of_bump?`). It fails exactly if the number to raise is the last word
(`Version.bump?_eq_none_iff`), and leads to a larger version (`Version.triple_lt_raise`).
-/

namespace Versioning

namespace Numbers

/-- A number has no next one exactly if it is the last word. -/
theorem next?_eq_none_iff {n : UInt64} : next? n = none ↔ n.toNat + 1 = UInt64.size := by
  have hn : n.toNat < UInt64.size := n.toNat_lt
  rw [next?, ite_eq_right_iff]
  simp only [reduceCtorEq, imp_false]
  omega

/-- The next number is larger by one. -/
theorem toNat_of_next? {n m : UInt64} (h : next? n = some m) : m.toNat = n.toNat + 1 := by
  rw [next?, Option.ite_none_right_eq_some] at h
  obtain ⟨hn, hm⟩ := h
  cases hm
  rw [UInt64.toNat_add]
  exact Nat.mod_eq_of_lt hn

end Numbers

namespace Version

/-- The numbers that versions are compared by. -/
def triple (v : Version) : List Nat :=
  [v.major.toNat, v.minor.toNat, v.patch.toNat]

/-- The number that a step of a level raises. -/
def raised? (level : BumpLevel) (v : Version) : Option UInt64 :=
  match level with
  | .none => none
  | .patch => some v.patch
  | .minor => some v.minor
  | .major => some v.major

/-- The numbers after a step of a level. -/
def raise (level : BumpLevel) (v : Version) : List Nat :=
  match level with
  | .none => v.triple
  | .patch => [v.major.toNat, v.minor.toNat, v.patch.toNat + 1]
  | .minor => [v.major.toNat, v.minor.toNat + 1, 0]
  | .major => [v.major.toNat + 1, 0, 0]

/-- Whether the number that a step of a level raises is the last word. -/
def IsLast (level : BumpLevel) (v : Version) : Prop :=
  ∃ n ∈ v.raised? level, n.toNat + 1 = UInt64.size

/-- There is no next version exactly if the number to raise is the last word. -/
theorem bump?_eq_none_iff {level : BumpLevel} {v : Version} :
    v.bump? level = none ↔ v.IsLast level := by
  obtain ⟨numbers, qualifier?, snapshot⟩ := v
  -- A number that is left out is zero, which is not the last word.
  have hzero : ¬1 = UInt64.size := by decide
  cases level <;> cases numbers <;>
    simp [bump?, Numbers.bump?, IsLast, raised?, Numbers.next?_eq_none_iff, major, minor, patch,
      Numbers.major, Numbers.minor, Numbers.patch, hzero]

/-- A version that is made from the next number. -/
theorem exists_next_of_map {n : UInt64} {f : UInt64 → Numbers} {g : Numbers → Version}
    {v : Version} (h : ((Numbers.next? n).map f).map g = some v) :
    ∃ m : UInt64, m.toNat = n.toNat + 1 ∧ g (f m) = v := by
  rw [Option.map_map, Option.map_eq_some_iff] at h
  obtain ⟨m, hm, hv⟩ := h
  exact ⟨m, Numbers.toNat_of_next? hm, hv⟩

/-- The next version has the raised numbers. -/
theorem triple_of_bump? {level : BumpLevel} {v next : Version} (h : v.bump? level = some next) :
    next.triple = v.raise level := by
  obtain ⟨numbers, qualifier?, snapshot⟩ := v
  cases level with
  | none => cases h; rfl
  | patch | minor | major =>
    -- A number that was left out becomes one, and any other one has a next one.
    cases numbers <;> first
      | cases h; rfl
      | obtain ⟨m, hm, rfl⟩ := exists_next_of_map h
        simp [triple, raise, major, minor, patch, Numbers.major, Numbers.minor, Numbers.patch, hm]

/-- A step drops the qualifier, unless the level is `none`. -/
theorem qualifier?_of_bump? {level : BumpLevel} (hlevel : level ≠ .none) {v next : Version}
    (h : v.bump? level = some next) : next.qualifier? = none := by
  cases level with
  | none => exact absurd rfl hlevel
  | patch | minor | major =>
    obtain ⟨numbers, -, rfl⟩ := Option.map_eq_some_iff.1 h
    rfl

/-- A step keeps the marker. -/
theorem snapshot_of_bump? {level : BumpLevel} {v next : Version} (h : v.bump? level = some next) :
    next.snapshot = v.snapshot := by
  cases level with
  | none =>
    cases h
    rfl
  | patch | minor | major =>
    obtain ⟨numbers, -, rfl⟩ := Option.map_eq_some_iff.1 h
    rfl

/-- The numbers become larger, unless the level is `none`. -/
theorem triple_lt_raise {level : BumpLevel} (hlevel : level ≠ .none) (v : Version) :
    v.triple < v.raise level := by
  cases level with
  | none => exact absurd rfl hlevel
  | patch => simp [triple, raise, List.cons_lt_cons_iff]
  | minor => simp [triple, raise, List.cons_lt_cons_iff]
  | major => simp [triple, raise, List.cons_lt_cons_iff]

/-- The strict text is the three numbers in decimal. -/
theorem strictText_eq (v : Version) :
    v.strictText = ".".intercalate (v.triple.map toString) := by
  rw [← String.toList_inj, String.toList_intercalate, strictText, String.toList_ofList]
  simp [Numbers.chars, Numbers.toList, Numbers.digits, triple]

end Version

end Versioning
