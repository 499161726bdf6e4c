import Mathlib.Data.List.Chain
import Versioning.Proofs.History.Paging

/-!
# The calls of a search

A search calls the change log with larger and larger limits. What the log answers may change
from call to call, and a page may be of any length, also longer than it was asked for. So
neither the pages nor their messages tell how a search goes on, but each call does: its
answer leaves the search open (`LeavesOpen`), or the search ends there. `Searches` lists the calls
one after the other, with one constructor for each way in which a call ends the search and one
for a call that is followed by others; every search is of this form (`mineFrom_searches`).

A page that leaves the search open is at least as long as its limit. If the log never answers more
than a certain number of changes, the limits stay below that number until the last call, and with
room for one step above it no limit exceeds the largest word (`exists_search_of_bounded`).
-/

namespace Versioning.CommitHistory

/-- A call of the change log: how many changes were asked for, and what was answered. -/
structure Call where
  limit : Nat
  answer : Except ReleaseError (List ChangeSet)

/-- The request that is made in a call. -/
def Call.request (directory : String) (call : Call) : PageRequest :=
  ⟨directory, call.limit⟩

/-- The number of changes on the page that was answered, if there is one. -/
def Call.length? (call : Call) : Option Nat :=
  call.answer.toOption.map List.length

/-- The limit after `limit`: one step larger, but no larger than the cap. -/
def nextLimit (limits : MiningLimits) (limit : Nat) : Nat :=
  match limits.maxCommits? with
  | some cap => min (limit + step limits) cap
  | none => limit + step limits

/-- A page that leaves the search open: it is as long as it was asked for, it has not the length of
    the page before it, none of its changes names a version, and the cap is not reached. -/
structure LeavesOpen (rules : Rules) (limits : MiningLimits) (limit : Nat) (previous? : Option Nat)
    (page : List ChangeSet) : Prop where
  full : limit ≤ page.length
  moved : previous? ≠ some page.length
  untagged : ∀ change ∈ page, versionsOf rules change = []
  below : ∀ cap, limits.maxCommits? = some cap → limit < cap

/-- The calls of a search from a limit on, after some requests and a page with `previous?` changes,
    and what it comes to. -/
inductive Searches (log : ChangeLog) (directory : String) (rules : Rules) (limits : MiningLimits) :
    List PageRequest → Nat → Option Nat → List Call → Except Failure CommitHistory → Prop
  | refused {asked : List PageRequest} {limit : Nat} {previous? : Option Nat} {e : ReleaseError} :
    log.answer asked ⟨directory, limit⟩ = .error e →
      Searches log directory rules limits asked limit previous? [⟨limit, .error e⟩]
        (.error (.error (.scmCausedBy ("Unable to read the change log of " ++ directory) e)))
  | judged {asked : List PageRequest} {limit : Nat} {previous? : Option Nat}
      {page : List ChangeSet} :
    log.answer asked ⟨directory, limit⟩ = .ok page →
      ¬LeavesOpen rules limits limit previous? page →
      Searches log directory rules limits asked limit previous? [⟨limit, .ok page⟩]
        (outcome rules page)
  | exceeded {asked : List PageRequest} {limit : Nat} {previous? : Option Nat}
      {page : List ChangeSet} :
    log.answer asked ⟨directory, limit⟩ = .ok page →
      LeavesOpen rules limits limit previous? page → wordLimit ≤ limit + step limits →
      Searches log directory rules limits asked limit previous? [⟨limit, .ok page⟩]
        (.error .overflow)
  | next {asked : List PageRequest} {limit : Nat} {previous? : Option Nat} {page : List ChangeSet}
      {calls : List Call} {result : Except Failure CommitHistory} :
    log.answer asked ⟨directory, limit⟩ = .ok page →
      LeavesOpen rules limits limit previous? page → limit + step limits < wordLimit →
      Searches log directory rules limits (⟨directory, limit⟩ :: asked) (nextLimit limits limit)
        (some page.length) calls result →
      Searches log directory rules limits asked limit previous? (⟨limit, .ok page⟩ :: calls) result

variable {log : ChangeLog} {directory : String} {rules : Rules} {limits : MiningLimits}

/-! ### One call -/

theorem nextLimit?_eq (limit : Nat) : nextLimit? limits limit =
    if limit + step limits < wordLimit then some (nextLimit limits limit) else none := rfl

/-- Limits grow, as long as the cap is not reached. -/
theorem lt_nextLimit {limit : Nat} (h : ∀ cap, limits.maxCommits? = some cap → limit < cap) :
    limit < nextLimit limits limit := by
  have hstep : 0 < step limits := Nat.lt_of_lt_of_le Nat.one_pos (Nat.le_max_right _ _)
  rw [nextLimit]
  split
  · next cap hcap =>
    have := h cap hcap
    omega
  · omega

/-- A limit grows by no more than a step. -/
theorem nextLimit_le (limits : MiningLimits) (limit : Nat) :
    nextLimit limits limit ≤ limit + step limits := by
  rw [nextLimit]
  split
  · exact Nat.min_le_left _ _
  · exact Nat.le_refl _

/-- Only a page without any version has neither one version nor several. -/
theorem outcome_eq_untagged_iff {page : List ChangeSet} :
    (∃ found, outcome rules page = .ok found ∧ found.tag?.isSome = false) ↔
      ∀ change ∈ page, versionsOf rules change = [] := by
  constructor
  · rintro ⟨found, hfound, htag⟩
    have hp := hfound ▸ sinceRelease_outcome rules page
    cases hp with
    | untagged hb => exact hb
    | tagged => cases htag
  · intro h
    exact ⟨_, (sinceRelease_iff.1 (.untagged h)).symm, rfl⟩

/-- What a page says is not an overflow. -/
theorem outcome_ne_overflow (page : List ChangeSet) : outcome rules page ≠ .error .overflow := by
  intro h
  rw [outcome] at h
  cases hscan : scan rules page <;> rw [hscan] at h <;> cases h

/-- A page leaves the search open exactly if it holds no version and does not end the search for
    another reason. -/
theorem leavesOpen_iff {limit : Nat} {previous? : Option Nat} {page : List ChangeSet} :
    LeavesOpen rules limits limit previous? page ↔
      ∃ found, outcome rules page = .ok found ∧
        (found.tag?.isSome || isLast limits limit page.length previous?) = false := by
  have hlast : isLast limits limit page.length previous? = false ↔ limit ≤ page.length ∧
      previous? ≠ some page.length ∧ ∀ cap, limits.maxCommits? = some cap → limit < cap := by
    simp only [isLast, Bool.or_eq_false_iff, decide_eq_false_iff_not, Nat.not_lt,
      beq_eq_false_iff_ne, Option.any_eq_false, and_assoc]
    simp only [ne_eq, Nat.not_le]
  simp only [Bool.or_eq_false_iff, hlast]
  constructor
  · rintro ⟨hfull, hmoved, huntagged, hbelow⟩
    obtain ⟨found, hfound, htag⟩ := outcome_eq_untagged_iff.2 huntagged
    exact ⟨found, hfound, htag, hfull, hmoved, hbelow⟩
  · rintro ⟨found, hfound, htag, hfull, hmoved, hbelow⟩
    exact ⟨hfull, hmoved, outcome_eq_untagged_iff.1 ⟨found, hfound, htag⟩, hbelow⟩

section Round

variable {fuel limit : Nat} {previous? : Option Nat} {page : List ChangeSet} {j : Journal}

/-- A page that does not leave the search open is judged. -/
theorem run_mineFrom_of_not_leavesOpen
    (hanswer : log.answer j.requests ⟨directory, limit⟩ = .ok page)
    (hclosed : ¬LeavesOpen rules limits limit previous? page) :
    ∃ j', (mineFrom log directory rules limits (fuel + 1) limit previous?).run j =
      (outcome rules page, j') ∧ j'.requests = ⟨directory, limit⟩ :: j.requests := by
  rw [run_mineFrom_succ, hanswer]
  dsimp only
  cases hfound : outcome rules page with
  | error failure => exact ⟨_, rfl, rfl⟩
  | ok found =>
    have hends : (found.tag?.isSome || isLast limits limit page.length previous?) = true := by
      refine Bool.of_not_eq_false fun hopen => hclosed ?_
      exact leavesOpen_iff.2 ⟨found, hfound, hopen⟩
    dsimp only
    rw [if_pos hends]
    exact ⟨_, rfl, rfl⟩

/-- After any other one the limit grows, unless the next one exceeds the largest word. -/
theorem run_mineFrom_of_leavesOpen
    (hanswer : log.answer j.requests ⟨directory, limit⟩ = .ok page)
    (hopen : LeavesOpen rules limits limit previous? page) :
    (mineFrom log directory rules limits (fuel + 1) limit previous?).run j =
      let asked := { j with requests := ⟨directory, limit⟩ :: j.requests }
      if limit + step limits < wordLimit then
        (mineFrom log directory rules limits fuel (nextLimit limits limit) (some page.length)).run
          asked
      else (.error .overflow, asked) := by
  obtain ⟨found, hfound, hends⟩ := leavesOpen_iff.1 hopen
  rw [run_mineFrom_succ, hanswer, nextLimit?_eq]
  dsimp only
  rw [hfound]
  dsimp only
  rw [hends, if_neg Bool.false_ne_true]
  by_cases hword : limit + step limits < wordLimit
  · rw [if_pos hword, if_pos hword]
  · rw [if_neg hword, if_neg hword]

end Round

/-! ### The whole search -/

/-- The requests of some calls, with the latest first. -/
def requestsOf (directory : String) (calls : List Call) : List PageRequest :=
  (calls.map (·.request directory)).reverse

theorem requestsOf_cons_append (call : Call) (calls : List Call) (asked : List PageRequest) :
    requestsOf directory (call :: calls) ++ asked =
      requestsOf directory calls ++ call.request directory :: asked := by
  simp [requestsOf]

/-- Every search is made of calls. The fuel lasts, since limits grow and none of them exceeds the
    largest word. -/
theorem mineFrom_searches {fuel limit : Nat} (hpos : 0 < fuel) (hlasts : wordLimit < fuel + limit)
    (previous? : Option Nat) (j : Journal) :
    ∃ calls, Searches log directory rules limits j.requests limit previous? calls
        ((mineFrom log directory rules limits fuel limit previous?).run j).1 ∧
      ((mineFrom log directory rules limits fuel limit previous?).run j).2.requests =
        requestsOf directory calls ++ j.requests := by
  induction fuel generalizing limit previous? j with
  | zero => exact absurd hpos (Nat.lt_irrefl 0)
  | succ fuel ih =>
    rcases hanswer : log.answer j.requests ⟨directory, limit⟩ with e | page
    · refine ⟨[⟨limit, .error e⟩], ?_⟩
      rw [run_mineFrom_succ, hanswer]
      exact ⟨.refused hanswer, rfl⟩
    · by_cases hopen : LeavesOpen rules limits limit previous? page
      · rw [run_mineFrom_of_leavesOpen hanswer hopen]
        dsimp only
        by_cases hword : limit + step limits < wordLimit
        · -- The next round, with what was asked in this one.
          have hgrows := lt_nextLimit hopen.below
          have hnext := nextLimit_le limits limit
          have hlasts' : wordLimit < fuel + nextLimit limits limit := by omega
          obtain ⟨calls, hcalls, hrequests⟩ := ih (by omega) hlasts' (some page.length)
            { j with requests := ⟨directory, limit⟩ :: j.requests }
          refine ⟨⟨limit, .ok page⟩ :: calls, ?_⟩
          rw [if_pos hword, requestsOf_cons_append]
          exact ⟨.next hanswer hopen hword hcalls, hrequests⟩
        · rw [if_neg hword]
          exact ⟨_, .exceeded hanswer hopen (Nat.le_of_not_lt hword), rfl⟩
      · obtain ⟨j', hrun, hrequests⟩ : ∃ j', (mineFrom log directory rules limits (fuel + 1) limit
            previous?).run j = (outcome rules page, j') ∧ _ :=
          run_mineFrom_of_not_leavesOpen hanswer hopen
        rw [hrun]
        exact ⟨_, .judged hanswer hopen, hrequests⟩

/-- The length of the page before a call, if there is one: that of the last of the calls before it,
    or else the one that the search began with. -/
def lengthBefore (previous? : Option Nat) (before : List Call) : Option Nat :=
  before.getLast?.elim previous? Call.length?

theorem lengthBefore_cons (previous? : Option Nat) (call : Call) (before : List Call) :
    lengthBefore previous? (call :: before) = lengthBefore call.length? before := by
  rw [lengthBefore, lengthBefore, List.getLast?_cons]
  cases before.getLast? <;> rfl

namespace Searches

variable {asked : List PageRequest} {limit : Nat} {previous? : Option Nat} {calls : List Call}
  {result : Except Failure CommitHistory}

/-- The first call is made with the limit that the search starts from. -/
theorem exists_first (h : Searches log directory rules limits asked limit previous? calls result) :
    ∃ first rest, calls = first :: rest ∧ first.limit = limit := by
  cases h <;> exact ⟨_, _, rfl, rfl⟩

/-- Each call is answered after the requests of those before it. -/
theorem answered (h : Searches log directory rules limits asked limit previous? calls result) :
    ∀ before call after, calls = before ++ call :: after → call.answer =
      log.answer (requestsOf directory before ++ asked) (call.request directory) := by
  induction h with
  | refused hanswer | judged hanswer | exceeded hanswer =>
    intro before call after hcalls
    obtain ⟨rfl, hcall⟩ | ⟨-, hnone⟩ := List.append_eq_singleton_iff.1 hcalls.symm
    · cases hcall
      exact hanswer.symm
    · cases hnone
  | next hanswer _ _ _ ih =>
    rintro (_ | ⟨first, before⟩) call after hcalls
    · cases hcalls
      exact hanswer.symm
    · obtain ⟨rfl, hrest⟩ := List.cons.inj hcalls
      rw [requestsOf_cons_append]
      exact ih before call after hrest

/-- From one call to the next one the limit grows as it has to. -/
theorem isChain (h : Searches log directory rules limits asked limit previous? calls result) :
    calls.IsChain fun call next =>
      next.limit = nextLimit limits call.limit ∧ call.limit < next.limit := by
  induction h with
  | refused | judged | exceeded => exact .singleton _
  | next _ hopen _ hrest ih =>
    obtain ⟨first, rest, rfl, hfirst⟩ := hrest.exists_first
    refine .cons_cons ⟨hfirst, ?_⟩ ih
    rw [hfirst]
    exact lt_nextLimit hopen.below

/-- A call is followed by another one exactly if its answer leaves the search open, provided that
    no limit exceeds the largest word. -/
theorem followed_iff (h : Searches log directory rules limits asked limit previous? calls result)
    (hword : result ≠ .error .overflow) :
    ∀ before call after, calls = before ++ call :: after → (after ≠ [] ↔
      ∃ page, call.answer = .ok page ∧
        LeavesOpen rules limits call.limit (lengthBefore previous? before) page) := by
  induction h with
  | refused =>
    intro before call after hcalls
    obtain ⟨rfl, hcall⟩ | ⟨-, hnone⟩ := List.append_eq_singleton_iff.1 hcalls.symm
    · cases hcall
      simp
    · cases hnone
  | judged _ hclosed =>
    intro before call after hcalls
    obtain ⟨rfl, hcall⟩ | ⟨-, hnone⟩ := List.append_eq_singleton_iff.1 hcalls.symm
    · cases hcall
      refine iff_of_false (by simp) ?_
      rintro ⟨page, hpage, hopen⟩
      cases hpage
      exact hclosed hopen
    · cases hnone
  | exceeded => exact absurd rfl hword
  | next _ hopen _ hrest ih =>
    rintro (_ | ⟨first, before⟩) call after hcalls
    · cases hcalls
      obtain ⟨first, rest, rfl, -⟩ := hrest.exists_first
      exact iff_of_true (List.cons_ne_nil _ _) ⟨_, rfl, hopen⟩
    · obtain ⟨rfl, hrest⟩ := List.cons.inj hcalls
      rw [lengthBefore_cons]
      exact ih hword before call after hrest

/-- The last answer alone decides what a search comes to, provided that no limit exceeds the largest
    word. -/
theorem exists_last (h : Searches log directory rules limits asked limit previous? calls result)
    (hword : result ≠ .error .overflow) : ∃ before last, calls = before ++ [last] ∧
      ((∃ e, last.answer = .error e ∧ result = .error (.error
          (.scmCausedBy ("Unable to read the change log of " ++ directory) e))) ∨
        ∃ page, last.answer = .ok page ∧ SinceRelease rules page result) := by
  induction h with
  | refused => exact ⟨[], _, rfl, .inl ⟨_, rfl, rfl⟩⟩
  | judged => exact ⟨[], _, rfl, .inr ⟨_, rfl, sinceRelease_outcome rules _⟩⟩
  | exceeded => exact absurd rfl hword
  | next _ _ _ _ ih =>
    obtain ⟨before, last, rfl, hdecided⟩ := ih hword
    exact ⟨_ :: before, last, rfl, hdecided⟩

/-- If the answers are bounded and there is room for one step above the bound, then no limit exceeds
    the largest word. -/
theorem ne_overflow (h : Searches log directory rules limits asked limit previous? calls result)
    {bound : Nat} (hbound : ∀ asked limit page,
      log.answer asked ⟨directory, limit⟩ = .ok page → page.length ≤ bound)
    (hroom : bound + step limits < wordLimit) : result ≠ .error .overflow := by
  induction h with
  | refused =>
    intro h
    cases h
  | judged => exact outcome_ne_overflow _
  | exceeded hanswer hopen hword =>
    have hfull := hopen.full
    have hle := hbound _ _ _ hanswer
    omega
  | next _ _ _ _ ih => exact ih

end Searches

/-- What is known of the calls of a search after some requests, the first call first, and of its
    result. -/
structure Search (log : ChangeLog) (directory : String) (rules : Rules) (limits : MiningLimits)
    (asked : List PageRequest) (calls : List Call) (result : Except Failure CommitHistory) :
    Prop where
  first : ∃ first rest, calls = first :: rest ∧ first.limit = firstLimit limits
  next : calls.IsChain fun call next => next.limit = nextLimit limits call.limit
  increasing : calls.Pairwise fun earlier later => earlier.limit < later.limit
  /-- The answers are those of the log, each after the requests before it. -/
  answered : ∀ before call after, calls = before ++ call :: after → call.answer =
    log.answer (requestsOf directory before ++ asked) (call.request directory)
  /-- A call is followed by another one exactly if its answer leaves the search open. -/
  followed_iff : ∀ before call after, calls = before ++ call :: after → (after ≠ [] ↔
    ∃ page, call.answer = .ok page ∧
      LeavesOpen rules limits call.limit (lengthBefore none before) page)
  /-- The last answer decides: it is an error, which the result passes on, or a page, and the result
      is what this page says. -/
  decided : ∃ before last, calls = before ++ [last] ∧
    ((∃ e, last.answer = .error e ∧ result = .error (.error
        (.scmCausedBy ("Unable to read the change log of " ++ directory) e))) ∨
      ∃ page, last.answer = .ok page ∧ SinceRelease rules page result)

/-- If the log never answers more than a bounded number of changes and there is room for one step
    above the bound, a search ends without an overflow, whatever the log answers to each call: its
    calls are made with growing limits until an answer does not leave it open, and it comes to what
    the last answer says. -/
theorem exists_search_of_bounded {bound : Nat}
    (hbound : ∀ asked limit page,
      log.answer asked ⟨directory, limit⟩ = .ok page → page.length ≤ bound)
    (hroom : bound + step limits < wordLimit) (j : Journal) :
    let run := (mine log directory rules limits).run j
    run.1 ≠ .error .overflow ∧ ∃ calls,
      run.2.requests = requestsOf directory calls ++ j.requests ∧
      Search log directory rules limits j.requests calls run.1 := by
  intro run
  obtain ⟨calls, hsearches, hrequests⟩ := mineFrom_searches (Nat.succ_pos wordLimit)
    (by omega : wordLimit < wordLimit + 1 + firstLimit limits) none j
  have hword : run.1 ≠ .error .overflow := hsearches.ne_overflow hbound hroom
  have hgrows : (calls.map (·.limit)).IsChain (· < ·) :=
    List.isChain_map_of_isChain (·.limit) (fun _ _ h => h.2) hsearches.isChain
  exact ⟨hword, calls, hrequests, hsearches.exists_first, hsearches.isChain.imp fun _ _ h => h.1,
    List.pairwise_map.1 hgrows.pairwise, hsearches.answered, hsearches.followed_iff hword,
    hsearches.exists_last hword⟩

/-- The second page of a log is longer than it was asked for and has nothing to do with the first
    one: the release on it is found, with the changes of this page only. -/
theorem search_of_changing_log :
    let log : ChangeLog := ⟨fun asked _ => match asked with
      | [] => .ok [⟨"fix: a", []⟩]
      | _ => .ok [⟨"feat: b", []⟩, ⟨"release", ["1.0"]⟩, ⟨"docs: c", []⟩]⟩
    let limits : MiningLimits := ⟨1, 1, none⟩
    let run := (mine log "." .builtin limits).run .empty
    (∀ asked limit page, log.answer asked ⟨".", limit⟩ = .ok page → page.length ≤ 3) ∧
      3 + step limits < wordLimit ∧ run.1 = .ok ⟨["feat: b"], some "1.0"⟩ ∧
      ∃ calls, calls.map (·.limit) = [1, 2] ∧ Search log "." .builtin limits [] calls run.1 := by
  intro log limits run
  have hbound : ∀ asked limit page, log.answer asked ⟨".", limit⟩ = .ok page → page.length ≤ 3 := by
    rintro (_ | ⟨_, _⟩) limit page h <;> cases h <;> decide
  have hroom : 3 + step limits < wordLimit := by decide
  obtain ⟨-, calls, hrequests, hsearch⟩ :=
    @exists_search_of_bounded log "." .builtin limits 3 hbound hroom .empty
  let page : List ChangeSet := [⟨"feat: b", []⟩, ⟨"release", ["1.0"]⟩, ⟨"docs: c", []⟩]
  have hopen : LeavesOpen .builtin limits 1 none [⟨"fix: a", []⟩] :=
    ⟨Nat.le_refl 1, nofun, by decide +kernel, nofun⟩
  have hclosed : ¬LeavesOpen .builtin limits 2 (some 1) page :=
    fun h => absurd (h.untagged ⟨"release", ["1.0"]⟩ (by simp [page])) (by decide +kernel)
  have hfirst : run = (mineFrom log "." .builtin limits wordLimit 2 (some 1)).run
      ⟨[], [⟨".", 1⟩]⟩ :=
    (run_mineFrom_of_leavesOpen rfl hopen).trans (if_pos (by decide))
  obtain ⟨j, hsecond, hasked⟩ : ∃ j, run = (outcome .builtin page, j) ∧ _ :=
    hfirst ▸ run_mineFrom_of_not_leavesOpen rfl hclosed
  have hfound : outcome .builtin page = .ok ⟨["feat: b"], some "1.0"⟩ := by decide +kernel
  have hlimits : calls.map (·.limit) = [1, 2] :=
    calc calls.map (·.limit)
      _ = (run.2.requests.map (·.limit)).reverse := by
        rw [hrequests]
        simp [requestsOf, Call.request, Journal.empty]
      _ = [1, 2] := by
        rw [hsecond, hasked]
        rfl
  have hresult : run.1 = .ok ⟨["feat: b"], some "1.0"⟩ := by rw [hsecond, hfound]
  exact ⟨hbound, hroom, hresult, calls, hlimits, hsearch⟩

end Versioning.CommitHistory
