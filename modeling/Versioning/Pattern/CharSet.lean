import Versioning.Pattern.Property

/-!
# Sets of characters

What a pattern may ask of a single character: a range of code points, a
property, and the sets made from these by union, intersection, difference,
complement and by forgetting about case. `CharSet.contains` decides membership;
it says all there is to know about a set, so each operation comes with the
equation that describes its members.
-/

namespace Versioning.Pattern

/-- A set of characters. -/
inductive CharSet where
  | none
  | range (first last : Char)
  | property (p : Property)
  | union (a b : CharSet)
  | inter (a b : CharSet)
  | diff (a b : CharSet)
  | symmDiff (a b : CharSet)
  | complement (a : CharSet)
  | anyCase (a : CharSet)
  | anyAsciiCase (a : CharSet)
  deriving DecidableEq, Repr

namespace CharSet

/-- The two cases of a letter below 128, or the character alone. -/
def asciiVariants (c : Char) : List Char :=
  if c.isLower then [c, c.toUpper] else if c.isUpper then [c, c.toLower] else [c]

/-- Membership of a character in a set. -/
def contains : CharSet → Char → Bool
  | none, _ => false
  | range first last, c => first ≤ c && c ≤ last
  | property p, c => p.holds c
  | union a b, c => a.contains c || b.contains c
  | inter a b, c => a.contains c && b.contains c
  | diff a b, c => a.contains c && !b.contains c
  | symmDiff a b, c => a.contains c != b.contains c
  | complement a, c => !a.contains c
  | anyCase a, c => (Unicode.caseVariants c).any fun v => a.contains v
  | anyAsciiCase a, c => (asciiVariants c).any fun v => a.contains v

/-- The set of one character. -/
def single (c : Char) : CharSet :=
  range c c

/-- The union of some sets. -/
def unions (sets : List CharSet) : CharSet :=
  sets.foldr union none

@[simp] theorem contains_none (c : Char) : none.contains c = false := rfl

@[simp] theorem contains_range (first last c : Char) :
    (range first last).contains c = (decide (first ≤ c) && decide (c ≤ last)) := rfl

@[simp] theorem contains_union (a b : CharSet) (c : Char) :
    (union a b).contains c = (a.contains c || b.contains c) := rfl

@[simp] theorem contains_complement (a : CharSet) (c : Char) :
    (complement a).contains c = !a.contains c := rfl

@[simp] theorem contains_single (a c : Char) : (single a).contains c = decide (c = a) := by
  simp only [single, contains_range, ← Bool.decide_and, decide_eq_decide]
  exact ⟨fun ⟨h, h'⟩ => Char.le_antisymm h' h, fun h => by simp [h]⟩

@[simp] theorem contains_unions (sets : List CharSet) (c : Char) :
    (unions sets).contains c = sets.any fun s => s.contains c := by
  induction sets with
  | nil => rfl
  | cons s sets ih => simpa [unions] using congrArg (s.contains c || ·) ih

end CharSet

end Versioning.Pattern
