import Versioning.Proofs.History.Calls

/-!
# Searches with a cap

A cap bounds how far a search goes back: no more changes are asked for, and no more messages are
found, than it allows. It does not bound the arithmetic. The next limit is computed before the cap
is looked at, so a search overflows exactly if it comes to a limit from which one more step exceeds
the largest word, however small the cap is (`Searches.overflow_iff`). With a step as large as a
word can be this already happens after the first page (`capped_search_overflows`); with a
step that leaves room for the cap it never does (`mine_capped`).
-/

namespace Versioning.CommitHistory

variable {log : ChangeLog} {directory : String} {rules : Rules} {limits : MiningLimits}
  {history : List ChangeSet}

/-- In a history, a search cannot go on from a limit: it has found no version in as many changes as
    that and is not at its end, but a step further exceeds the largest word. -/
structure ExceedsAt (rules : Rules) (limits : MiningLimits) (history : List ChangeSet)
    (limit : Nat) : Prop where
  full : limit ≤ history.length
  untagged : ∀ change ∈ history.take limit, versionsOf rules change = []
  below : ∀ cap, limits.maxCommits? = some cap → limit < cap
  exceeds : wordLimit ≤ limit + step limits

/-- A limit that is below the cap is larger than the one before by a whole step. -/
theorem nextLimit_eq_of_lt {limit : Nat}
    (h : ∀ cap, limits.maxCommits? = some cap → nextLimit limits limit < cap) :
    nextLimit limits limit = limit + step limits := by
  rw [nextLimit] at h ⊢
  split
  · next cap hcap =>
    have hbelow := h cap hcap
    simp only [hcap] at hbelow
    omega
  · rfl

/-- A page of a history leaves a search open exactly if nothing was found and neither the history
    nor the cap ends there. -/
theorem leavesOpen_take_iff {limit : Nat} {previous? : Option Nat}
    (hprevious : ∀ length, previous? = some length → length < limit) :
    LeavesOpen rules limits limit previous? (history.take limit) ↔ limit ≤ history.length ∧
      (∀ change ∈ history.take limit, versionsOf rules change = []) ∧
      ∀ cap, limits.maxCommits? = some cap → limit < cap := by
  constructor
  · rintro ⟨hfull, -, huntagged, hbelow⟩
    rw [List.length_take] at hfull
    exact ⟨by omega, huntagged, hbelow⟩
  · rintro ⟨hfull, huntagged, hbelow⟩
    have hlength : (history.take limit).length = limit := List.length_take_of_le hfull
    refine ⟨hlength.ge, fun hsame => ?_, huntagged, hbelow⟩
    -- The page before is shorter than this limit, and so than this page.
    rw [hlength] at hsame
    exact absurd (hprevious _ hsame) (Nat.lt_irrefl limit)

namespace Searches

variable {asked : List PageRequest} {limit : Nat} {previous? : Option Nat} {calls : List Call}
  {result : Except Failure CommitHistory}

/-- A search of a history overflows exactly if it comes to a limit from which it cannot go on. -/
theorem overflow_iff (hlog : log.Serves directory history)
    (h : Searches log directory rules limits asked limit previous? calls result)
    (hprevious : ∀ length, previous? = some length → length < limit) :
    result = .error .overflow ↔
      ∃ rounds, ExceedsAt rules limits history (limit + rounds * step limits) := by
  induction h with
  | refused hanswer => cases hanswer.symm.trans (hlog _ _)
  | @judged asked limit previous? page hanswer hclosed =>
    obtain rfl : history.take limit = page := Except.ok.inj ((hlog _ _).symm.trans hanswer)
    refine iff_of_false (outcome_ne_overflow _) ?_
    -- If it could go on beyond this limit, it could do so from here.
    rintro ⟨rounds, hfull, huntagged, hbelow, -⟩
    refine hclosed ((leavesOpen_take_iff hprevious).2 ⟨by omega, fun change hchange => ?_, ?_⟩)
    · exact huntagged change (List.take_subset_take_left _ (Nat.le_add_right _ _) hchange)
    · exact fun cap hcap => Nat.lt_of_le_of_lt (Nat.le_add_right _ _) (hbelow cap hcap)
  | @exceeded asked limit previous? page hanswer hopen hword =>
    obtain rfl : history.take limit = page := Except.ok.inj ((hlog _ _).symm.trans hanswer)
    obtain ⟨hfull, huntagged, hbelow⟩ := (leavesOpen_take_iff hprevious).1 hopen
    refine iff_of_true rfl ⟨0, ?_⟩
    rw [Nat.zero_mul, Nat.add_zero]
    exact ⟨hfull, huntagged, hbelow, hword⟩
  | @next asked limit previous? page calls result hanswer hopen hword _ ih =>
    obtain rfl : history.take limit = page := Except.ok.inj ((hlog _ _).symm.trans hanswer)
    have hgrows := lt_nextLimit hopen.below
    rw [ih fun length hlength => by
      cases hlength
      exact Nat.lt_of_le_of_lt (List.length_take_le _ _) hgrows]
    constructor
    · rintro ⟨rounds, hexceeds⟩
      have hnext : nextLimit limits limit = limit + step limits :=
        nextLimit_eq_of_lt fun cap hcap =>
          Nat.lt_of_le_of_lt (Nat.le_add_right _ _) (hexceeds.below cap hcap)
      refine ⟨rounds + 1, ?_⟩
      rwa [hnext, Nat.add_assoc, Nat.add_comm (step limits), ← Nat.succ_mul] at hexceeds
    · rintro ⟨rounds, hexceeds⟩
      -- One step from here does not exceed the largest word, so there are more of them.
      cases rounds with
      | zero =>
        have := hexceeds.exceeds
        omega
      | succ rounds =>
        rw [Nat.succ_mul, Nat.add_comm _ (step limits), ← Nat.add_assoc] at hexceeds
        have hnext : nextLimit limits limit = limit + step limits :=
          nextLimit_eq_of_lt fun cap hcap =>
            Nat.lt_of_le_of_lt (Nat.le_trans (nextLimit_le _ _) (Nat.le_add_right _ _))
              (hexceeds.below cap hcap)
        exact ⟨rounds, hnext ▸ hexceeds⟩

/-- With a cap, no call asks for more than it allows. -/
theorem limit_le {cap : Nat} (hcap : limits.maxCommits? = some cap)
    (h : Searches log directory rules limits asked limit previous? calls result)
    (hlimit : limit ≤ max cap 1) : ∀ call ∈ calls, call.limit ≤ max cap 1 := by
  induction h with
  | refused | judged | exceeded => simpa using hlimit
  | @next _ limit _ _ _ _ _ _ _ _ ih =>
    have hnext : nextLimit limits limit ≤ max cap 1 := by
      rw [nextLimit, hcap]
      dsimp only
      omega
    exact List.forall_mem_cons.2 ⟨hlimit, ih hnext⟩

end Searches

/-- With a cap, the first limit is no larger than it allows. -/
theorem firstLimit_le {cap : Nat} (hcap : limits.maxCommits? = some cap) :
    firstLimit limits ≤ max cap 1 := by
  rw [firstLimit, hcap]
  exact Nat.min_le_right _ _

/-- No more messages are found than there are changes on the page. -/
theorem SinceRelease.length_le {page : List ChangeSet} {found : CommitHistory}
    (h : SinceRelease rules page (.ok found)) : found.changes.length ≤ page.length := by
  cases h with
  | untagged => simp
  | tagged => simp

/-- In a history with a cap, a search overflows exactly if it comes to a limit from which it cannot
    go on, and never if the cap leaves room for a step. Whatever it comes to, it asks for no more
    changes than the cap allows, and finds no more messages. -/
theorem mine_capped {cap : Nat} (hlog : log.Serves directory history)
    (hcap : limits.maxCommits? = some cap) (j : Journal) :
    let run := (mine log directory rules limits).run j
    (run.1 = .error .overflow ↔
      ∃ rounds, ExceedsAt rules limits history (firstLimit limits + rounds * step limits)) ∧
    (cap + step limits ≤ wordLimit → run.1 ≠ .error .overflow) ∧
    (∃ asked, run.2.requests = asked ++ j.requests ∧
      ∀ request ∈ asked, request.directory = directory ∧ request.limit ≤ max cap 1) ∧
    ∀ found, run.1 = .ok found → found.changes.length ≤ max cap 1 := by
  intro run
  obtain ⟨calls, hsearches, hrequests⟩ := mineFrom_searches (Nat.succ_pos wordLimit)
    (by omega : wordLimit < wordLimit + 1 + firstLimit limits) none j
  have hoverflow : run.1 = .error .overflow ↔
      ∃ rounds, ExceedsAt rules limits history (firstLimit limits + rounds * step limits) :=
    hsearches.overflow_iff hlog nofun
  refine ⟨hoverflow, fun hroom h => ?_, ⟨_, hrequests, ?_⟩, fun found hfound => ?_⟩
  · obtain ⟨rounds, -, -, hbelow, hexceeds⟩ := hoverflow.1 h
    have := hbelow cap hcap
    omega
  · have hlimits := hsearches.limit_le hcap (firstLimit_le hcap)
    simp only [requestsOf, List.mem_reverse, List.forall_mem_map]
    exact fun call hcall => ⟨rfl, hlimits call hcall⟩
  · -- What is found is found in the window.
    rcases mine_eq_outcome_or_overflow hlog j with hwindow | ⟨hfails, -⟩
    · have hlength := (sinceRelease_iff.2 (hfound.symm.trans hwindow)).length_le
      rw [List.length_take, window, hcap] at hlength
      dsimp only at hlength
      omega
    · cases hfound.symm.trans hfails

/-- A step that just leaves room for a cap of three changes: the second page is as long as the cap
    allows. -/
theorem mine_capped_at_three :
    let history : List ChangeSet :=
      [⟨"fix: d", []⟩, ⟨"docs: c", []⟩, ⟨"feat: b", []⟩, ⟨"release", ["1.0"]⟩]
    let log := ChangeLog.ofHistory history
    let limits : MiningLimits := ⟨1, 18446744073709551613, some 3⟩
    let run := (mine log "." .builtin limits).run .empty
    log.Serves "." history ∧ limits.maxCommits? = some 3 ∧ 3 + step limits ≤ wordLimit ∧
      run.1 = .ok ⟨["fix: d", "docs: c", "feat: b"], none⟩ ∧
      ∀ request ∈ run.2.requests, request.directory = "." ∧ request.limit ≤ 3 := by
  intro history log limits run
  have hserves : log.Serves "." history := ChangeLog.serves_ofHistory "." history
  have hroom : 3 + step limits ≤ wordLimit := by decide
  obtain ⟨-, hword, ⟨asked, hasked, hlimits⟩, -⟩ :=
    @mine_capped log "." .builtin limits history 3 hserves rfl .empty
  have hwindow : run.1 = outcome .builtin _ :=
    (mine_eq_outcome_or_overflow hserves .empty).resolve_right fun h => hword hroom h.1
  have hfound : outcome .builtin (history.take 3) =
      .ok ⟨["fix: d", "docs: c", "feat: b"], none⟩ := by decide +kernel
  have hrequests : run.2.requests = asked := by
    rw [hasked]
    exact List.append_nil asked
  exact ⟨hserves, rfl, hroom, hwindow.trans hfound, hrequests ▸ hlimits⟩

/-- With a step as large as a word, a search that may go back five changes does not come to the
    second one. -/
theorem capped_search_overflows :
    let history : List ChangeSet := [⟨"fix: b", []⟩, ⟨"fix: a", []⟩]
    let limits : MiningLimits := ⟨1, 18446744073709551615, some 5⟩
    (ChangeLog.ofHistory history).Serves "." history ∧ limits.pageStep < wordLimit ∧
      ((mine (.ofHistory history) "." .builtin limits).run .empty).1 = .error .overflow := by
  intro history limits
  have hopen : LeavesOpen .builtin limits 1 none [⟨"fix: b", []⟩] := by
    refine ⟨Nat.le_refl 1, nofun, by decide +kernel, ?_⟩
    rintro cap ⟨⟩
    decide
  have hrun : (mine (.ofHistory history) "." .builtin limits).run .empty =
      (.error .overflow, ⟨[], [⟨".", 1⟩]⟩) :=
    (run_mineFrom_of_leavesOpen rfl hopen).trans (if_neg (by decide))
  exact ⟨ChangeLog.serves_ofHistory "." history, by decide, congrArg Prod.fst hrun⟩

end Versioning.CommitHistory
