import Mathlib.Data.List.GetD
import Versioning.Proofs.Version.Step

/-!
# Raising a number

A version is written with one to three numbers, and a step raises one of three. So a step may have
to write zeros that were left out, and it sets to zero what stands behind the number it raises.
`raiseAt` does so to a list of any length, and a step does nothing else to the numbers of a version
(`Version.written_of_bump?`).

From this follows how a step changes a version (`Version.RaisedAt`), and what two steps have to do
with each other: a larger level raises a number further to the left, so its step leads to a larger
version (`Version.triple_lt_of_bump?`), and sets to zero what a step of a smaller level has raised
before it (`Version.exists_bump?_absorbs`).
-/

namespace Versioning

/-! ### Lists of numbers -/

/-- Raises the number at a position by one and sets those behind it to zero. Numbers that are left
    out are zeros. -/
def raiseAt : (position : Nat) → List Nat → List Nat
  | 0, [] => [1]
  | 0, n :: rest => (n + 1) :: List.replicate rest.length 0
  | position + 1, [] => 0 :: raiseAt position []
  | position + 1, n :: rest => n :: raiseAt position rest

/-- There are as many numbers as before, or as many as it takes. -/
theorem length_raiseAt (position : Nat) (numbers : List Nat) :
    (raiseAt position numbers).length = max numbers.length (position + 1) := by
  fun_induction raiseAt position numbers with
  | case1 => rfl
  | case2 => simp
  | case3 position ih => simp [ih]
  | case4 position n rest ih => simp [ih]

theorem getD_raiseAt_of_lt {position i : Nat} (h : i < position) (numbers : List Nat) :
    (raiseAt position numbers).getD i 0 = numbers.getD i 0 := by
  fun_induction raiseAt position numbers generalizing i with
  | case1 | case2 => exact absurd h (Nat.not_lt_zero i)
  | case3 position ih =>
    cases i with
    | zero => rfl
    | succ i => exact ih (Nat.lt_of_succ_lt_succ h)
  | case4 position n rest ih =>
    cases i with
    | zero => rfl
    | succ i => exact ih (Nat.lt_of_succ_lt_succ h)

theorem getD_raiseAt_self (position : Nat) (numbers : List Nat) :
    (raiseAt position numbers).getD position 0 = numbers.getD position 0 + 1 := by
  fun_induction raiseAt position numbers with
  | case1 | case2 => rfl
  | case3 position ih => exact ih
  | case4 position n rest ih => exact ih

theorem getD_raiseAt_of_gt {position i : Nat} (h : position < i) (numbers : List Nat) :
    (raiseAt position numbers).getD i 0 = 0 := by
  fun_induction raiseAt position numbers generalizing i with
  | case1 =>
    cases i with
    | zero => exact absurd h (Nat.lt_irrefl 0)
    | succ i => rfl
  | case2 n rest =>
    cases i with
    | zero => exact absurd h (Nat.lt_irrefl 0)
    | succ i => exact List.getElem?_getD_replicate_default_eq 0 rest.length i
  | case3 position ih =>
    cases i with
    | zero => exact absurd h (Nat.not_lt_zero _)
    | succ i => exact ih (Nat.lt_of_succ_lt_succ h)
  | case4 position n rest ih =>
    cases i with
    | zero => exact absurd h (Nat.not_lt_zero _)
    | succ i => exact ih (Nat.lt_of_succ_lt_succ h)

namespace Version

/-! ### The numbers of a version -/

/-- The numbers that are written. -/
def written (v : Version) : List Nat :=
  v.numbers.toList.map UInt64.toNat

/-- The number at a position, zero if it is left out. -/
def number (v : Version) (i : Nat) : Nat :=
  v.written.getD i 0

/-- Versions are compared by their first three numbers. -/
theorem triple_eq (v : Version) : v.triple = [v.number 0, v.number 1, v.number 2] := by
  obtain ⟨numbers, qualifier?, snapshot⟩ := v
  cases numbers <;> rfl

/-- A version is smaller if, of the first numbers that differ, its own is smaller. -/
theorem triple_lt_triple {v w : Version} {i : Nat} (hi : i < 3)
    (habove : ∀ j < i, v.number j = w.number j) (hlt : v.number i < w.number i) :
    v.triple < w.triple := by
  rw [triple_eq, triple_eq, List.cons_lt_cons_iff, List.cons_lt_cons_iff, List.cons_lt_cons_iff]
  -- The first number that differs is one of three.
  match i, hi with
  | 0, _ => exact .inl hlt
  | 1, _ => exact .inr ⟨habove 0 (by decide), .inl hlt⟩
  | 2, _ => exact .inr ⟨habove 0 (by decide), .inr ⟨habove 1 (by decide), .inl hlt⟩⟩

end Version

/-- The position of the number that a level raises. -/
def BumpLevel.position? : BumpLevel → Option Nat
  | none => .none
  | patch => some 2
  | minor => some 1
  | major => some 0

theorem BumpLevel.exists_position? {level : BumpLevel} (h : level ≠ none) :
    ∃ i, level.position? = some i := by
  cases level with
  | none => exact absurd rfl h
  | patch | minor | major => exact ⟨_, rfl⟩

/-- A larger level raises a number further to the left. -/
theorem BumpLevel.position?_of_lt {a b : BumpLevel} (hab : a < b) :
    ∃ i, b.position? = some i ∧ i < 3 ∧ ∀ j, a.position? = some j → i < j := by
  cases a <;> cases b <;> revert hab <;> simp [position?] <;> decide

namespace Version

/-- A step raises the number of its level and no other one, however many were written. -/
theorem written_of_bump? {level : BumpLevel} {i : Nat} (hi : level.position? = some i)
    {v next : Version} (h : v.bump? level = some next) : next.written = raiseAt i v.written := by
  obtain ⟨numbers, qualifier?, snapshot⟩ := v
  cases level with
  | none => cases hi
  | patch | minor | major =>
    cases hi
    cases numbers <;> first
      | cases h; rfl
      | obtain ⟨m, hm, rfl⟩ := exists_next_of_map h
        simp [written, raiseAt, Numbers.toList, hm]

/-- A step is impossible exactly if the number to raise is the last word. -/
theorem bump?_eq_none_iff_number {level : BumpLevel} {i : Nat} (hi : level.position? = some i)
    (v : Version) : v.bump? level = none ↔ v.number i + 1 = UInt64.size := by
  have hraised : (v.raised? level).map UInt64.toNat = some (v.number i) := by
    obtain ⟨numbers, qualifier?, snapshot⟩ := v
    cases level <;> cases hi <;> cases numbers <;> rfl
  obtain ⟨n, hn, hvalue⟩ := Option.map_eq_some_iff.1 hraised
  rw [bump?_eq_none_iff, IsLast, hn, ← hvalue]
  simp

/-- What becomes of a version when the number at a position is raised. -/
structure RaisedAt (i : Nat) (v next : Version) : Prop where
  snapshot : next.snapshot = v.snapshot
  qualifier? : next.qualifier? = none
  length : next.written.length = max v.written.length (i + 1)
  above : ∀ j < i, next.number j = v.number j
  raised : next.number i = v.number i + 1
  below : ∀ j, i < j → next.number j = 0

theorem raisedAt_of_bump? {level : BumpLevel} {i : Nat} (hi : level.position? = some i)
    {v next : Version} (h : v.bump? level = some next) : v.RaisedAt i next := by
  have hlevel : level ≠ .none := by
    rintro rfl
    cases hi
  have hwritten := written_of_bump? hi h
  exact {
    snapshot := snapshot_of_bump? h
    qualifier? := qualifier?_of_bump? hlevel h
    length := by rw [hwritten, length_raiseAt]
    above := fun j hj => by rw [number, hwritten, getD_raiseAt_of_lt hj, number]
    raised := by rw [number, hwritten, getD_raiseAt_self, number]
    below := fun j hj => by rw [number, hwritten, getD_raiseAt_of_gt hj] }

/-! ### Two steps -/

/-- Numbers in front of the one that is raised are kept. -/
theorem number_of_bump? {level : BumpLevel} {i : Nat}
    (hi : ∀ j, level.position? = some j → i < j) {v next : Version}
    (h : v.bump? level = some next) : next.number i = v.number i := by
  cases hposition : level.position? with
  | none =>
    cases level <;> cases hposition
    cases h
    rfl
  | some j => exact (raisedAt_of_bump? hposition h).above i (hi j hposition)

variable {a b : BumpLevel} {v w x : Version} (hab : a < b) (hw : v.bump? a = some w)
  (hx : v.bump? b = some x)
include hab hw

/-- Up to the number that a larger level raises, a step keeps the numbers. -/
theorem exists_position?_kept :
    ∃ i, b.position? = some i ∧ i < 3 ∧ ∀ j ≤ i, w.number j = v.number j := by
  obtain ⟨i, hi, hthree, hleft⟩ := BumpLevel.position?_of_lt hab
  refine ⟨i, hi, hthree, fun j hj => number_of_bump? (fun k hk => ?_) hw⟩
  exact Nat.lt_of_le_of_lt hj (hleft k hk)

include hx

/-- Of two steps from one version, the one of the larger level leads further. -/
theorem triple_lt_of_bump? : w.triple < x.triple := by
  obtain ⟨i, hi, hthree, hkept⟩ := exists_position?_kept hab hw
  have hraised := raisedAt_of_bump? hi hx
  refine triple_lt_triple hthree (fun j hj => ?_) ?_
  · rw [hkept j (Nat.le_of_lt hj), hraised.above j hj]
  · rw [hkept i (Nat.le_refl i), hraised.raised]
    exact Nat.lt_succ_self _

/-- A step of a larger level makes a smaller one before it forgotten. -/
theorem exists_bump?_absorbs : ∃ y, w.bump? b = some y ∧ y.triple = x.triple := by
  obtain ⟨i, hi, -, hkept⟩ := exists_position?_kept hab hw
  have hpossible : w.bump? b ≠ none := by
    rw [Ne, bump?_eq_none_iff_number hi, hkept i (Nat.le_refl i), ← bump?_eq_none_iff_number hi, hx]
    exact nofun
  obtain ⟨y, hy⟩ := Option.ne_none_iff_exists'.1 hpossible
  have hraised := raisedAt_of_bump? hi hx
  have hraised' := raisedAt_of_bump? hi hy
  have hsame : ∀ j, y.number j = x.number j := by
    intro j
    rcases Nat.lt_trichotomy j i with hlt | rfl | hgt
    · rw [hraised'.above j hlt, hkept j (Nat.le_of_lt hlt), hraised.above j hlt]
    · rw [hraised'.raised, hkept j (Nat.le_refl j), hraised.raised]
    · rw [hraised'.below j hgt, hraised.below j hgt]
  exact ⟨y, hy, by rw [triple_eq, triple_eq, hsame, hsame, hsame]⟩

omit hab hw hx

/-- A step of any level but `none` raises one number, unless that is the last word; the level `none`
    changes nothing. Steps of larger levels lead to larger versions, and make smaller steps before
    them forgotten. -/
theorem bump?_laws (v : Version) :
    (∀ level, level ≠ .none → ∃ i, level.position? = some i ∧
      (v.bump? level = none ↔ v.number i + 1 = UInt64.size) ∧
        ∀ next, v.bump? level = some next → v.RaisedAt i next) ∧
      v.bump? .none = some v ∧
      (∀ a b w x, a < b → v.bump? a = some w → v.bump? b = some x → w.triple < x.triple) ∧
      ∀ a b w x, .none < a → a < b → v.bump? a = some w → v.bump? b = some x →
        ∃ y, w.bump? b = some y ∧ y.triple = x.triple := by
  refine ⟨fun level hlevel => ?_, rfl, fun _ _ _ _ => triple_lt_of_bump?,
    fun _ _ _ _ _ => exists_bump?_absorbs⟩
  obtain ⟨i, hi⟩ := BumpLevel.exists_position? hlevel
  exact ⟨i, hi, bump?_eq_none_iff_number hi v, fun _ => raisedAt_of_bump? hi⟩

/-- The numbers that a short version leaves out are written where a step needs them. -/
theorem bump?_laws_of_one :
    BumpLevel.patch < BumpLevel.minor ∧
      bump? .patch ⟨.one 1, some "rc", true⟩ = some ⟨.three 1 0 1, none, true⟩ ∧
      bump? .minor ⟨.one 1, some "rc", true⟩ = some ⟨.two 1 1, none, true⟩ ∧
      triple ⟨.three 1 0 1, none, true⟩ < triple ⟨.two 1 1, none, true⟩ ∧
      ∃ y, bump? .minor ⟨.three 1 0 1, none, true⟩ = some y ∧
        y.triple = triple ⟨.two 1 1, none, true⟩ :=
  ⟨by decide, rfl, rfl,
    (bump?_laws ⟨.one 1, some "rc", true⟩).2.2.1 .patch .minor _ _ (by decide) rfl rfl,
    (bump?_laws ⟨.one 1, some "rc", true⟩).2.2.2 .patch .minor _ _ (by decide) (by decide) rfl rfl⟩

end Version

end Versioning
