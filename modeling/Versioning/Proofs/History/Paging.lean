import Versioning.Proofs.History.SinceRelease

/-!
# Paging

A history that is served by its beginnings is read in longer and longer pages. How it is
paged does not show in the result: it is the outcome of a single page, the
*window* of all changes that the cap allows (`window`).

Before every round the limit is at least one, has not passed the cap and is larger than the
page before (`Underway`, kept by `Underway.next`). So a page that ends the search has come to
the end of the window (`window_le_of_isLast`). Otherwise the page is full, so the next limit
is no word too large as long as there is room for one step above the history.
-/

namespace Versioning.CommitHistory

variable {log : ChangeLog} {directory : String} {rules : Rules} {limits : MiningLimits}

/-- A round: a page is asked for and read, and either it ends the search or a longer one is asked
    for. -/
theorem run_mineFrom_succ (fuel limit : Nat) (previous? : Option Nat) (j : Journal) :
    (mineFrom log directory rules limits (fuel + 1) limit previous?).run j =
      let asked := { j with requests := ⟨directory, limit⟩ :: j.requests }
      match log.answer j.requests ⟨directory, limit⟩ with
      | .error e =>
        (.error (.error (.scmCausedBy ("Unable to read the change log of " ++ directory) e)), asked)
      | .ok page =>
        match outcome rules page with
        | .error failure => (.error failure, asked)
        | .ok history =>
          if history.tag?.isSome || isLast limits limit page.length previous? then
            (.ok history,
              { asked with messages := ⟨.debug, minedText history limit⟩ :: asked.messages })
          else
            match nextLimit? limits limit with
            | none => (.error .overflow, asked)
            | some next =>
              (mineFrom log directory rules limits fuel next (some page.length)).run asked := by
  rw [mineFrom, Failure.run_bind, Consult.run_ask]
  rcases log.answer j.requests ⟨directory, limit⟩ with e | page
  · rfl
  · rcases h : scan rules page with versions | history
    · simp only [h, outcome_of_scan_error h]
      rfl
    · simp only [h, outcome_of_scan h]
      split
      · rfl
      · rcases nextLimit? limits limit with _ | next <;> rfl

/-- A result that is no failure is the outcome of some beginning of the history. -/
theorem exists_outcome_of_mineFrom {history : List ChangeSet} {found : CommitHistory}
    (hlog : log.Serves directory history) {fuel limit : Nat} {previous? : Option Nat} {j : Journal}
    (h : ((mineFrom log directory rules limits fuel limit previous?).run j).1 = .ok found) :
    ∃ n, outcome rules (history.take n) = .ok found := by
  induction fuel generalizing limit previous? j with
  | zero => cases h
  | succ fuel ih =>
    rw [run_mineFrom_succ, hlog] at h
    dsimp only at h
    split at h
    · cases h
    · next page hpage =>
      split at h
      · exact ⟨limit, hpage.trans h⟩
      · split at h
        · cases h
        · exact ih h

/-! ## The window -/

/-- How many changes of a history of the given length count: all that the cap allows. -/
def window (limits : MiningLimits) (length : Nat) : Nat :=
  match limits.maxCommits? with
  | none => length
  | some cap => min length (max cap 1)

/-- What holds before every round. The fuel lasts until the limit exceeds the largest word. -/
structure Underway (limits : MiningLimits) (fuel limit : Nat) (previous? : Option Nat) : Prop where
  fuel_pos : 0 < fuel
  lasts : wordLimit < fuel + limit
  limit_pos : 0 < limit
  limit_le : ∀ cap, limits.maxCommits? = some cap → limit ≤ max cap 1
  previous_lt : ∀ length, previous? = some length → length < limit

/-- The first round. -/
theorem underway_first (limits : MiningLimits) :
    Underway limits (wordLimit + 1) (firstLimit limits) none where
  fuel_pos := Nat.succ_pos _
  lasts := by omega
  limit_pos := by
    simp only [firstLimit]
    split <;> omega
  limit_le cap hcap := by
    simp only [firstLimit, hcap]
    omega
  previous_lt _ h := by cases h

variable {fuel limit length : Nat} {previous? : Option Nat}

/-- A page that ends the search reaches the end of the window. -/
theorem window_le_of_isLast (hu : Underway limits fuel limit previous?)
    (h : isLast limits limit (min limit length) previous? = true) :
    window limits length ≤ limit := by
  have hwindow : window limits length ≤ length := by
    rw [window]
    split <;> omega
  simp only [isLast, Bool.or_eq_true, decide_eq_true_eq, beq_iff_eq, Option.any_eq_true] at h
  rcases h with (hshort | hstalled) | ⟨cap, hcap, hle⟩
  · omega
  · -- The page before was shorter than this limit, so this page is, too.
    have := hu.previous_lt _ hstalled
    omega
  · have := hu.limit_pos
    simp only [window, hcap]
    omega

/-- A page never goes beyond the window. -/
theorem Underway.min_le_window (hu : Underway limits fuel limit previous?) (length : Nat) :
    min limit length ≤ window limits length := by
  rw [window]
  split
  · exact Nat.min_le_right _ _
  · next cap hcap =>
    have := hu.limit_le cap hcap
    omega

/-- A page is a beginning of the window. -/
theorem Underway.take_prefix (hu : Underway limits fuel limit previous?)
    (history : List ChangeSet) :
    history.take limit <+: history.take (window limits history.length) := by
  refine List.prefix_of_prefix_length_le (List.take_prefix _ _) (List.take_prefix _ _) ?_
  have := hu.min_le_window history.length
  rw [List.length_take, List.length_take]
  omega

/-- A page that does not end the search is full and has not come to the cap. -/
theorem lt_of_not_isLast (h : ¬isLast limits limit (min limit length) previous? = true) :
    limit ≤ length ∧ ∀ cap, limits.maxCommits? = some cap → limit < cap := by
  simp only [isLast, Bool.or_eq_true, decide_eq_true_eq, beq_iff_eq, Option.any_eq_true,
    not_or] at h
  obtain ⟨⟨hfull, -⟩, hcap⟩ := h
  exact ⟨by omega, fun cap hc => Nat.lt_of_not_le fun hle => hcap ⟨cap, hc, hle⟩⟩

/-- The round after a page that does not end the search. -/
theorem Underway.next {next : Nat} (hu : Underway limits (fuel + 1) limit previous?)
    (hcap : ∀ cap, limits.maxCommits? = some cap → limit < cap)
    (hnext : nextLimit? limits limit = some next) : Underway limits fuel next (some limit) := by
  have hstep : 0 < step limits := Nat.lt_of_lt_of_le Nat.one_pos (Nat.le_max_right _ _)
  have hlasts := hu.lasts
  rw [nextLimit?] at hnext
  split at hnext
  · next hword =>
    have hgrows : limit < next ∧ ∀ cap, limits.maxCommits? = some cap → next ≤ cap := by
      rw [Option.some.injEq] at hnext
      cases hm : limits.maxCommits? with
      | none =>
        simp only [hm] at hnext
        exact ⟨by omega, fun _ hc => by cases hc⟩
      | some cap =>
        have hlt := hcap cap hm
        simp only [hm] at hnext
        exact ⟨by omega, fun _ hc => by cases hc; omega⟩
    refine ⟨by omega, by omega, by omega, fun cap hc => ?_, fun length hl => ?_⟩
    · have := hgrows.2 cap hc
      omega
    · cases hl
      exact hgrows.1
  · cases hnext

/-! ## The whole search -/

/-- Every page is a beginning of the window, and one that ends the search for another reason than a
    version is all of it. Only if the history is too long for another step can the search end
    before that. -/
theorem mineFrom_eq_outcome_or_overflow {history : List ChangeSet}
    (hlog : log.Serves directory history) (hu : Underway limits fuel limit previous?)
    (j : Journal) :
    ((mineFrom log directory rules limits fuel limit previous?).run j).1 =
        outcome rules (history.take (window limits history.length)) ∨
      ((mineFrom log directory rules limits fuel limit previous?).run j).1 = .error .overflow ∧
        wordLimit ≤ history.length + step limits := by
  induction fuel generalizing limit previous? j with
  | zero => exact absurd hu.fuel_pos (Nat.lt_irrefl 0)
  | succ fuel ih =>
    obtain ⟨older, holder⟩ := hu.take_prefix history
    have hfound (h : ∀ changes, outcome rules (history.take limit) ≠ .ok ⟨changes, none⟩) :
        outcome rules (history.take limit) =
          outcome rules (history.take (window limits history.length)) := by
      rw [← holder, outcome_append older h]
    rw [run_mineFrom_succ, hlog]
    dsimp only
    cases hpage : outcome rules (history.take limit) with
    | error failure =>
      exact .inl (hpage.symm.trans (hfound fun _ h => by cases hpage.symm.trans h))
    | ok found =>
      dsimp only
      rw [List.length_take]
      split
      · next hlast =>
        left
        rw [Bool.or_eq_true] at hlast
        rcases hlast with htag | hlast
        · refine hpage.symm.trans (hfound fun _ h => ?_)
          cases hpage.symm.trans h
          cases htag
        · have hle := window_le_of_isLast hu hlast
          have hmin := hu.min_le_window history.length
          refine hpage.symm.trans (congrArg _ ?_)
          rw [List.take_eq_take_iff]
          omega
      · next hlast =>
        rw [Bool.or_eq_true, not_or] at hlast
        obtain ⟨hfull, hcap⟩ := lt_of_not_isLast hlast.2
        cases hnext : nextLimit? limits limit with
        | none =>
          refine .inr ⟨rfl, ?_⟩
          rw [nextLimit?] at hnext
          split at hnext
          · cases hnext
          · omega
        | some next =>
          rw [Nat.min_eq_left hfull]
          exact ih (hu.next hcap hnext) _

/-- The history since the latest release is the outcome of the window, unless there is no room for
    another step above the history and the search overflows. -/
theorem mine_eq_outcome_or_overflow {history : List ChangeSet}
    (hlog : log.Serves directory history) (j : Journal) :
    ((mine log directory rules limits).run j).1 =
        outcome rules (history.take (window limits history.length)) ∨
      ((mine log directory rules limits).run j).1 = .error .overflow ∧
        wordLimit ≤ history.length + step limits :=
  mineFrom_eq_outcome_or_overflow hlog (underway_first limits) j

/-- With room for one step above the history, it is the outcome of the window. -/
theorem mine_eq_outcome {history : List ChangeSet} (hlog : log.Serves directory history)
    (hroom : history.length + step limits < wordLimit) (j : Journal) :
    ((mine log directory rules limits).run j).1 =
      outcome rules (history.take (window limits history.length)) :=
  (mine_eq_outcome_or_overflow hlog j).resolve_right fun h => absurd h.2 (Nat.not_le.2 hroom)

/-- The history since the latest release is what a single page of all changes that the cap allows
    says, and no other. How the log is paged, and what was asked before, does not show in it. -/
theorem sinceRelease_mine {history : List ChangeSet} (hlog : log.Serves directory history)
    (hroom : history.length + step limits < wordLimit) (j : Journal) :
    (∀ result, ((mine log directory rules limits).run j).1 = result ↔
      SinceRelease rules (history.take (window limits history.length)) result) ∧
    ∀ (initialPage pageStep : Nat) (j' : Journal),
      history.length + max pageStep 1 < wordLimit →
      ((mine log directory rules { limits with initialPage, pageStep }).run j').1 =
        ((mine log directory rules limits).run j).1 := by
  refine ⟨fun result => ?_, fun initialPage pageStep j' hroom' => ?_⟩
  · rw [sinceRelease_iff, mine_eq_outcome hlog hroom, eq_comm]
  · -- The window does not depend on the sizes of the pages.
    have hroom' : history.length + step { limits with initialPage, pageStep } < wordLimit := hroom'
    exact (mine_eq_outcome hlog hroom' j').trans (mine_eq_outcome hlog hroom j).symm

/-- Three pages up to the cap, or a single one: the release in the third change is found, and the
    older one is not. -/
theorem sinceRelease_mine_at_cap :
    let history : List ChangeSet := [⟨"feat: b", []⟩, ⟨"fix: a", ["nightly"]⟩,
      ⟨"release", ["1.0", "v1"]⟩, ⟨"older release", ["0.9"]⟩]
    let found : CommitHistory := ⟨["feat: b", "fix: a"], some "1.0"⟩
    (ChangeLog.ofHistory history).Serves "." history ∧
      history.length + step ⟨0, 0, some 3⟩ < wordLimit ∧ history.length + max 10 1 < wordLimit ∧
      ((mine (.ofHistory history) "." .builtin ⟨0, 0, some 3⟩).run .empty).1 = .ok found ∧
      ((mine (.ofHistory history) "." .builtin ⟨10, 10, some 3⟩).run .empty).1 = .ok found := by
  intro history found
  have hlog := ChangeLog.serves_ofHistory "." history
  have hroom : history.length + step ⟨0, 0, some 3⟩ < wordLimit := by decide
  obtain ⟨hfound, hpaging⟩ := @sinceRelease_mine _ _ .builtin _ _ hlog hroom .empty
  have htagged : SinceRelease .builtin (history.take 3) (.ok found) :=
    .tagged (history.take 2) _ [] (by decide +kernel) (by decide +kernel)
  have hmined := (hfound _).2 htagged
  exact ⟨hlog, hroom, by decide, hmined, (hpaging 10 10 .empty (by decide)).trans hmined⟩

end Versioning.CommitHistory
