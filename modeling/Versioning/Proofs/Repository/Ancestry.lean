import Mathlib.Logic.Relation
import Versioning.Repository.Graph

/-!
# Ancestry

Which commits a commit is built on. `Reaches` is the relation behind the list
`CommitGraph.reachable`: a commit reaches itself and all that its parents reach. As
parents come before their children, it only leads to earlier commits
(`Reaches.le`), so every way is short enough to be found (`mem_reachable`).
-/

namespace Versioning.CommitGraph

variable (g : CommitGraph)

/-- A commit reaches itself and its ancestors. -/
def Reaches : Nat → Nat → Prop :=
  Relation.ReflTransGen fun i p => p ∈ g.parents i

variable {g}

/-- The ancestors of a commit come before it. -/
theorem Reaches.le {i a : Nat} (h : g.Reaches i a) : a ≤ i := by
  induction h with
  | refl => exact Nat.le_refl i
  | tail _ hp ih => exact Nat.le_trans (Nat.le_of_lt (lt_of_mem_parents hp)) ih

/-- Along an order that does not grow from a commit to its parents, no ancestor is larger. -/
theorem Reaches.apply_le {f : Nat → Nat} (hf : ∀ i, ∀ p ∈ g.parents i, f p ≤ f i) {i a : Nat}
    (h : g.Reaches i a) : f a ≤ f i := by
  induction h with
  | refl => exact Nat.le_refl _
  | tail _ hp ih => exact Nat.le_trans (hf _ _ hp) ih

/-! ## The list of all that is reached -/

/-- Some commits and their parents. -/
theorem mem_withParents {found : List Nat} {x : Nat} :
    x ∈ g.withParents found ↔ x ∈ found ∨ ∃ i ∈ found, x ∈ g.parents i := by
  suffices ∀ (ps found : List Nat), x ∈ ps.foldl
      (fun found p => if found.contains p then found else found ++ [p]) found ↔
      x ∈ found ∨ x ∈ ps by
    rw [withParents, this, List.mem_flatMap]
  intro ps
  induction ps with
  | nil => simp
  | cons p ps ih =>
    intro found
    rw [List.foldl_cons, ih, List.mem_cons]
    split
    · next hp =>
      have hp : p ∈ found := List.contains_iff_mem.1 hp
      refine ⟨fun h => h.imp_right .inr, fun h => ?_⟩
      rcases h with h | rfl | h
      · exact .inl h
      · exact .inl hp
      · exact .inr h
    · rw [List.mem_append, List.mem_singleton, or_assoc]

/-- Everything that is found belongs to the ancestry. -/
theorem exists_reaches_of_mem_ancestors {n : Nat} {found : List Nat} {x : Nat}
    (h : x ∈ g.ancestors n found) : ∃ i ∈ found, g.Reaches i x := by
  induction n generalizing found with
  | zero => exact ⟨x, h, .refl⟩
  | succ n ih =>
    obtain ⟨i, hi, hx⟩ := ih h
    rcases mem_withParents.1 hi with hi | ⟨j, hj, hp⟩
    · exact ⟨i, hi, hx⟩
    · exact ⟨j, hj, .head hp hx⟩

/-- What was found stays found. -/
theorem mem_ancestors_of_mem (n : Nat) {found : List Nat} {x : Nat} (h : x ∈ found) :
    x ∈ g.ancestors n found := by
  induction n generalizing found with
  | zero => exact h
  | succ n ih => exact ih (mem_withParents.2 (.inl h))

/-- A way down from a commit has no more steps than there are commits before it. -/
theorem mem_ancestors_of_reaches {n : Nat} {found : List Nat} {i x : Nat} (hi : i ∈ found)
    (hn : i ≤ n) (h : g.Reaches i x) : x ∈ g.ancestors n found := by
  induction n generalizing found i with
  | zero =>
    obtain rfl : i = 0 := Nat.le_zero.1 hn
    obtain rfl : x = 0 := Nat.le_zero.1 h.le
    exact hi
  | succ n ih =>
    rcases h.cases_head with rfl | ⟨p, hp, hx⟩
    · exact mem_ancestors_of_mem _ hi
    · have hlt := lt_of_mem_parents hp
      exact ih (mem_withParents.2 (.inr ⟨i, hi, hp⟩)) (by omega) hx

/-- The list holds a commit and its ancestors. -/
theorem mem_reachable {head x : Nat} : x ∈ g.reachable head ↔ g.Reaches head x := by
  constructor
  · intro h
    obtain ⟨i, hi, hx⟩ := exists_reaches_of_mem_ancestors h
    obtain rfl := List.mem_singleton.1 hi
    exact hx
  · intro h
    by_cases hhead : head ≤ g.commits.length
    · exact mem_ancestors_of_reaches (List.mem_singleton_self _) hhead h
    · -- No commit stands there, so there are no parents either.
      rcases h.cases_head with rfl | ⟨p, hp, -⟩
      · exact mem_ancestors_of_mem _ (List.mem_singleton_self _)
      · have hnone : g.commits[head]? = none := List.getElem?_eq_none (by omega)
        simp [parents, hnone] at hp

instance (head x : Nat) : Decidable (g.Reaches head x) :=
  decidable_of_iff _ mem_reachable

end Versioning.CommitGraph
