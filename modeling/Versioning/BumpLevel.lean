/-!
# Sizes of a version increment

How much a version grows, from nothing to a new major version. The levels are
ordered by size, and the level of several changes is the largest of theirs.
-/

namespace Versioning

/-- The size of a version increment. -/
inductive BumpLevel where
  | none | patch | minor | major
  deriving DecidableEq, Repr, Inhabited

namespace BumpLevel

/-- The position of a level in the order of size. -/
def rank : BumpLevel → Nat
  | none => 0
  | patch => 1
  | minor => 2
  | major => 3

instance : LE BumpLevel := ⟨fun a b => a.rank ≤ b.rank⟩

instance : LT BumpLevel := ⟨fun a b => a.rank < b.rank⟩

instance (a b : BumpLevel) : Decidable (a ≤ b) := inferInstanceAs (Decidable (a.rank ≤ b.rank))

instance (a b : BumpLevel) : Decidable (a < b) := inferInstanceAs (Decidable (a.rank < b.rank))

/-- The larger of two levels. -/
def max (a b : BumpLevel) : BumpLevel :=
  if a ≤ b then b else a

/-- The name of a level. -/
def name : BumpLevel → String
  | none => "NONE"
  | patch => "PATCH"
  | minor => "MINOR"
  | major => "MAJOR"

/-- The level with a name. -/
def ofName? (text : String) : Option BumpLevel :=
  [none, patch, minor, major].find? fun level => level.name == text

/-- The largest of some levels, if there is one. -/
def max? : List BumpLevel → Option BumpLevel
  | [] => Option.none
  | level :: levels => some (levels.foldl max level)

/-- The levels from the smallest to the largest. -/
def sort (levels : List BumpLevel) : List BumpLevel :=
  levels.mergeSort fun a b => a.rank ≤ b.rank

/-- A level is known by its rank. -/
theorem rank_injective {a b : BumpLevel} (h : a.rank = b.rank) : a = b := by
  cases a <;> cases b <;> first | rfl | cases h

end BumpLevel

end Versioning
