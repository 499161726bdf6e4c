import Mathlib.Data.List.Induction
import Mathlib.Tactic.ByContra
import Mathlib.Tactic.Push
import Versioning.Proofs.Repository.Ancestry

/-!
# Walks

In which order the history of a commit may be given. A commit is *ready* when it was not
given yet and all of its children in the history were. A *listing* gives every
commit of the history, each when it is ready; in a *walk* none that is ready is newer
than the one that is given. The order of commits with the same time is left open.

* `CommitGraph.isWalk_walk`: the list that `CommitGraph.walk` computes is a walk;
* `IsListing.mem_before_of_reaches`: the descendants of a commit are given before it;
* `IsWalk.mem_before_of_overtakes`: a commit that is, like all of its descendants, newer
  than some commit on the way to another one is given before that one.
-/

namespace Versioning.CommitGraph

variable {g : CommitGraph} {head : Nat}

/-- A commit may be given next: it was not given, and all of its children were. -/
structure Ready (g : CommitGraph) (head : Nat) (given : List Nat) (i : Nat) : Prop where
  reaches : g.Reaches head i
  not_given : i ∉ given
  children_given : ∀ child, g.Reaches head child → i ∈ g.parents child → child ∈ given

/-- In which order commits were given does not matter. -/
theorem ready_reverse {given : List Nat} {i : Nat} :
    g.Ready head given.reverse i ↔ g.Ready head given i := by
  constructor <;> rintro ⟨hi, hn, hc⟩ <;>
    exact ⟨hi, by simpa using hn, fun child hchild hp => by simpa using hc child hchild hp⟩

/-- An order that gives every commit of a history, each after all of its children. -/
structure IsListing (g : CommitGraph) (head : Nat) (order : List Nat) : Prop where
  complete : ∀ i, g.Reaches head i → i ∈ order
  ready : ∀ before i after, order = before ++ i :: after → g.Ready head before i

/-- A listing that always gives the newest of the commits that may come next. -/
structure IsWalk (g : CommitGraph) (head : Nat) (order : List Nat) : Prop
    extends IsListing g head order where
  newest : ∀ before i after, order = before ++ i :: after →
    ∀ j, g.Ready head before j → g.time j ≤ g.time i

/-- As long as a commit was not given, it or one of its descendants is ready: going up from child to
    child ends at the head. -/
theorem exists_ready_reaches {given : List Nat} {i : Nat} (hi : g.Reaches head i)
    (hn : i ∉ given) : ∃ j, g.Ready head given j ∧ g.Reaches j i := by
  induction hk : head - i using Nat.strongRecOn generalizing i with
  | ind k ih =>
    by_cases hchildren : ∀ child, g.Reaches head child → i ∈ g.parents child → child ∈ given
    · exact ⟨i, ⟨hi, hn, hchildren⟩, .refl⟩
    · push Not at hchildren
      obtain ⟨child, hc, hp, hcn⟩ := hchildren
      have hlt := lt_of_mem_parents hp
      have hle := hc.le
      obtain ⟨j, hj, hji⟩ := ih (head - child) (by omega) hc hcn rfl
      exact ⟨j, hj, hji.tail hp⟩

/-! ## Listings -/

section Listing

variable {order before after : List Nat} {c : Nat}

/-- What was given up to some point is closed under descendants. -/
theorem IsListing.mem_of_reaches (h : g.IsListing head order) (horder : order = before ++ after)
    {d i : Nat} (hd : g.Reaches head d) (hdi : g.Reaches d i) (hi : i ∈ before) : d ∈ before := by
  induction hdi with
  | refl => exact hi
  | @tail b i hdb hbi ih =>
    refine ih ?_
    obtain ⟨newer, older, rfl⟩ := List.append_of_mem hi
    have hready := h.ready newer i (older ++ after) (by simp [horder])
    exact List.mem_append_left _ (hready.children_given b (hd.trans hdb) hbi)

/-- The descendants of a commit are given before it. -/
theorem IsListing.mem_before_of_reaches (h : g.IsListing head order)
    (horder : order = before ++ c :: after) {d : Nat} (hd : g.Reaches head d)
    (hdc : g.Reaches d c) (hne : d ≠ c) : d ∈ before := by
  rcases hdc.cases_tail with rfl | ⟨child, hdb, hp⟩
  · exact absurd rfl hne
  · have hchild := (h.ready before c after horder).children_given child (hd.trans hdb) hp
    exact h.mem_of_reaches horder hd hdb hchild

/-- What was given before a commit is neither that commit nor one of its ancestors. -/
theorem IsListing.not_reaches_of_mem_before (h : g.IsListing head order)
    (horder : order = before ++ c :: after) {i : Nat} (hi : i ∈ before) : ¬g.Reaches c i := by
  intro hci
  have hready := h.ready before c after horder
  exact hready.not_given (h.mem_of_reaches horder hready.reaches hci hi)

/-- No commit is given twice. -/
theorem IsListing.nodup (h : g.IsListing head order) : order.Nodup := by
  suffices ∀ before after, order = before ++ after → before.Nodup from this order [] (by simp)
  intro before
  induction before using List.reverseRecOn with
  | nil => exact fun _ _ => .nil
  | append_singleton before i ih =>
    intro after horder
    rw [List.append_assoc] at horder
    have hnew := (h.ready before i after horder).not_given
    refine List.nodup_append.2 ⟨ih _ horder, List.pairwise_singleton _ i, fun a ha b hb hab => ?_⟩
    obtain rfl := List.mem_singleton.1 hb
    exact hnew (hab ▸ ha)

/-- What is given belongs to the history. -/
theorem IsListing.reaches (h : g.IsListing head order) {i : Nat} (hi : i ∈ order) :
    g.Reaches head i := by
  obtain ⟨newer, older, rfl⟩ := List.append_of_mem hi
  exact (h.ready newer i older rfl).reaches

/-- One commit overtakes another one if it and all of its descendants are newer than some commit on
    the way from the head to the other. -/
def Overtakes (g : CommitGraph) (head x c : Nat) : Prop :=
  ∃ d, g.Reaches head d ∧ g.Reaches d c ∧
    ∀ y, g.Reaches head y → g.Reaches y x → g.time d < g.time y

/-- A commit that overtakes another one is given before it. -/
theorem IsWalk.mem_before_of_overtakes (h : g.IsWalk head order)
    (horder : order = before ++ c :: after) {x : Nat} (hx : g.Reaches head x)
    (hxc : g.Overtakes head x c) : x ∈ before := by
  obtain ⟨d, hd, hdc, hnewer⟩ := hxc
  by_contra hxb
  -- When the commit on the way is given, `x` or one of its descendants is ready and newer.
  obtain ⟨before', after', hsplit, hx'⟩ : ∃ before' after',
      order = before' ++ d :: after' ∧ x ∉ before' := by
    by_cases hne : d = c
    · exact ⟨before, after, hne ▸ horder, hxb⟩
    · obtain ⟨newer, older, rfl⟩ := List.append_of_mem (h.mem_before_of_reaches horder hd hdc hne)
      exact ⟨newer, older ++ c :: after, by simp [horder],
        fun hxn => hxb (List.mem_append_left _ hxn)⟩
  obtain ⟨y, hy, hyx⟩ := exists_ready_reaches hx hx'
  have hle := h.newest before' d after' hsplit y hy
  exact absurd (hnewer y hy.reaches hyx) (Nat.not_lt.2 hle)

/-- If no commit is older than its parents, a newer commit overtakes an older one. -/
theorem overtakes_of_time_lt (htime : ∀ i, ∀ p ∈ g.parents i, g.time p ≤ g.time i) {x : Nat}
    (hc : g.Reaches head c) (h : g.time c < g.time x) : g.Overtakes head x c :=
  ⟨c, hc, .refl, fun _ _ hyx => Nat.lt_of_lt_of_le h (hyx.apply_le htime)⟩

/-- If no commit is older than its parents, commits are given from the newest to the oldest. -/
theorem IsWalk.time_le_of_mem_before (h : g.IsWalk head order)
    (htime : ∀ i, ∀ p ∈ g.parents i, g.time p ≤ g.time i)
    (horder : order = before ++ c :: after) {x : Nat} (hx : x ∈ before) : g.time c ≤ g.time x := by
  by_contra hlt
  obtain ⟨newer, older, rfl⟩ := List.append_of_mem hx
  have hc := (h.ready _ c after horder).reaches
  have hsplit : order = newer ++ x :: (older ++ c :: after) := by simp [horder]
  have hcn := h.mem_before_of_overtakes hsplit hc
    (overtakes_of_time_lt htime (h.ready newer x _ hsplit).reaches (Nat.lt_of_not_le hlt))
  exact (h.ready _ c after horder).not_given (List.mem_append_left _ hcn)

end Listing

/-! ## The computed walk -/

/-- A list of commits has a newest one unless it is empty. -/
theorem newest?_eq_none {l : List Nat} (h : g.newest? l = none) : l = [] := by
  cases l with
  | nil => rfl
  | cons a rest =>
    rw [newest?] at h
    split at h
    · cases h
    · split at h <;> cases h

/-- The newest commit of a list is one of them, and no other is newer. -/
theorem newest?_eq_some {l : List Nat} {i : Nat} (h : g.newest? l = some i) :
    i ∈ l ∧ ∀ j ∈ l, g.time j ≤ g.time i := by
  induction l generalizing i with
  | nil => cases h
  | cons a rest ih =>
    rw [newest?] at h
    split at h
    · next hrest =>
      cases h
      rw [newest?_eq_none hrest]
      exact ⟨List.mem_cons_self, fun j hj => List.mem_singleton.1 hj ▸ Nat.le_refl _⟩
    · next b hb =>
      obtain ⟨hmem, hle⟩ := ih hb
      split at h
      · next hlt =>
        cases h
        refine ⟨List.mem_cons_of_mem _ hmem, fun j hj => ?_⟩
        rcases List.mem_cons.1 hj with rfl | hj
        · exact Nat.le_of_lt hlt
        · exact hle j hj
      · next hlt =>
        cases h
        refine ⟨List.mem_cons_self, fun j hj => ?_⟩
        rcases List.mem_cons.1 hj with rfl | hj
        · exact Nat.le_refl _
        · exact Nat.le_trans (hle j hj) (Nat.le_of_not_lt hlt)

/-- The commits that may come next are the ready ones. -/
theorem mem_available {given : List Nat} {i : Nat} :
    i ∈ g.available (g.reachable head) given ↔ g.Ready head given i := by
  simp only [available, List.mem_filter, mem_reachable, Bool.and_eq_true, Bool.not_eq_true',
    List.all_eq_true, Bool.or_eq_true, List.contains_eq_mem, decide_eq_true_eq,
    decide_eq_false_iff_not]
  constructor
  · rintro ⟨hi, hn, hc⟩
    exact ⟨hi, hn, fun child hchild hp => (hc child hchild).resolve_right fun h => h hp⟩
  · rintro ⟨hi, hn, hc⟩
    exact ⟨hi, hn, fun child hchild => or_iff_not_imp_right.2 fun h => hc child hchild (not_not.1 h)⟩

/-- Each commit of the computed list is the newest one that is ready. -/
theorem newest?_of_walkFrom {all before after given : List Nat} {fuel i : Nat}
    (h : g.walkFrom all fuel given = before ++ i :: after) :
    g.newest? (g.available all (before.reverse ++ given)) = some i := by
  induction before generalizing fuel given with
  | nil =>
    cases fuel with
    | zero => cases h
    | succ fuel =>
      rw [walkFrom] at h
      split at h
      · cases h
      · next j hj =>
        cases h
        exact hj
  | cons b before ih =>
    cases fuel with
    | zero => cases h
    | succ fuel =>
      rw [walkFrom] at h
      split at h
      · cases h
      · next j hj =>
        rw [List.cons_append, List.cons.injEq] at h
        obtain ⟨rfl, h⟩ := h
        simpa using ih h

/-- The computed list is complete: it only ends when no commit is ready, which is when all were
    given. -/
theorem mem_walkFrom {fuel : Nat} {given : List Nat}
    (hfuel : ((g.reachable head).filter (· ∉ given)).length ≤ fuel) {i : Nat}
    (hi : g.Reaches head i) (hn : i ∉ given) :
    i ∈ g.walkFrom (g.reachable head) fuel given := by
  induction fuel generalizing given with
  | zero =>
    have hmem : i ∈ (g.reachable head).filter (· ∉ given) :=
      List.mem_filter.2 ⟨mem_reachable.2 hi, decide_eq_true hn⟩
    rw [List.eq_nil_of_length_eq_zero (Nat.le_zero.1 hfuel)] at hmem
    cases hmem
  | succ fuel ih =>
    rw [walkFrom]
    split
    · next hnone =>
      obtain ⟨j, hj, -⟩ := exists_ready_reaches hi hn
      have hmem := mem_available.2 hj
      rw [newest?_eq_none hnone] at hmem
      cases hmem
    · next j hj =>
      by_cases hij : i = j
      · exact hij ▸ List.mem_cons_self
      · refine List.mem_cons_of_mem _ (ih (Nat.le_of_lt_succ (Nat.lt_of_lt_of_le ?_ hfuel)) ?_)
        · -- The commit that was just given is no longer left.
          have hready := mem_available.1 (newest?_eq_some hj).1
          have hleft : (g.reachable head).filter (· ∉ j :: given) =
              ((g.reachable head).filter (· ∉ given)).filter (· ≠ j) := by
            rw [List.filter_filter]
            refine List.filter_congr fun x _ => ?_
            simp [not_or]
          rw [hleft]
          refine List.length_filter_lt_length_iff_exists.2 ⟨j, ?_, by simp⟩
          exact List.mem_filter.2 ⟨mem_reachable.2 hready.reaches, decide_eq_true hready.not_given⟩
        · simp [hij, hn]

/-- The computed list is a walk. -/
theorem isWalk_walk (g : CommitGraph) (head : Nat) : g.IsWalk head (g.walk head) := by
  have hnewest : ∀ before i after, g.walk head = before ++ i :: after →
      i ∈ g.available (g.reachable head) before ∧
        ∀ j ∈ g.available (g.reachable head) before, g.time j ≤ g.time i := by
    intro before i after h
    have := newest?_eq_some (newest?_of_walkFrom h)
    simpa only [mem_available, ready_reverse, List.append_nil] using this
  refine ⟨⟨fun i hi => ?_, fun before i after h => ?_⟩, fun before i after h j hj => ?_⟩
  · exact mem_walkFrom (List.length_filter_le _ _) hi List.not_mem_nil
  · exact mem_available.1 (hnewest before i after h).1
  · exact (hnewest before i after h).2 j (mem_available.2 hj)

end Versioning.CommitGraph
