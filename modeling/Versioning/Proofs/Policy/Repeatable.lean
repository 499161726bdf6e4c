import Versioning.Policy

/-!
# Policies that repeat themselves

What a policy proposes may depend on all that was asked and reported before. A
consultation is *repeatable* if it comes to the same whenever it is made
(`Consult.Repeatable`). If the change log does not change between two requests
(`ChangeLog.Fixed`), then mining it is repeatable, and so is everything that the built-in
policies do (`Policies.builtin_repeatable`): they are functions of the request.
-/

namespace Versioning

/-- The log gives the same answer to a request, whatever was asked before. -/
def ChangeLog.Fixed (log : ChangeLog) : Prop :=
  ∀ asked asked' request, log.answer asked request = log.answer asked' request

theorem ChangeLog.fixed_ofHistory (history : List ChangeSet) : (ofHistory history).Fixed :=
  fun _ _ _ => rfl

namespace Consult

/-- The consultation comes to the same whenever it is made. -/
def Repeatable {α : Type} (x : Consult α) : Prop :=
  ∀ j j', (x.run j).1 = (x.run j').1

namespace Repeatable

variable {α β : Type}

theorem pure (a : α) : Repeatable (Pure.pure a) :=
  fun _ _ => rfl

theorem throw (e : Failure) : Repeatable (throw e : Consult α) :=
  fun _ _ => rfl

theorem report (severity : Severity) (text : String) :
    Repeatable (Consult.report severity text) :=
  fun _ _ => rfl

theorem ofExcept (x : Except ReleaseError α) : Repeatable (Consult.ofExcept x) := by
  cases x with
  | ok a => exact pure a
  | error e => exact throw _

theorem ofOption (a? : Option α) : Repeatable (Consult.ofOption a?) := by
  cases a? with
  | none => exact throw _
  | some a => exact pure a

theorem ask {log : ChangeLog} (h : log.Fixed) (request : PageRequest) :
    Repeatable (Consult.ask log request) := by
  intro j j'
  rw [run_ask, run_ask, h j.requests j'.requests]

theorem bind {x : Consult α} {f : α → Consult β} (hx : Repeatable x)
    (hf : ∀ a, Repeatable (f a)) : Repeatable (x >>= f) := by
  intro j j'
  have hsame := hx j j'
  rw [Failure.run_bind, Failure.run_bind]
  rcases hj : x.run j with ⟨result, k⟩
  rcases hj' : x.run j' with ⟨result', k'⟩
  rw [hj, hj'] at hsame
  obtain rfl : result = result' := hsame
  cases result with
  | error e => rfl
  | ok a => exact hf a k k'

theorem mapError {f : ReleaseError → ReleaseError} {x : Consult α} (hx : Repeatable x) :
    Repeatable (Consult.mapError f x) := by
  intro j j'
  have hsame := hx j j'
  rw [run_mapError, run_mapError]
  rcases hj : x.run j with ⟨result, k⟩
  rcases hj' : x.run j' with ⟨result', k'⟩
  rw [hj, hj'] at hsame
  obtain rfl : result = result' := hsame
  rcases result with (e | _) | a <;> rfl

end Repeatable

end Consult

open Consult (Repeatable)

/-! ### Histories -/

namespace CommitHistory

/-- The same pages are read until the search ends. -/
theorem mineFrom_repeatable {log : ChangeLog} (h : log.Fixed) (directory : String) (rules : Rules)
    (limits : MiningLimits) (fuel limit : Nat) (previous? : Option Nat) :
    Repeatable (mineFrom log directory rules limits fuel limit previous?) := by
  induction fuel generalizing limit previous? with
  | zero => exact .throw _
  | succ fuel ih =>
    refine (Repeatable.ask h _).bind fun answer => ?_
    cases answer with
    | error e => exact .throw _
    | ok page =>
      dsimp only
      split
      · exact .throw _
      · split
        · exact (Repeatable.report _ _).bind fun _ => .pure _
        · split
          · exact .throw _
          · exact ih _ _

theorem mine_repeatable {log : ChangeLog} (h : log.Fixed) (directory : String) (rules : Rules)
    (limits : MiningLimits) : Repeatable (mine log directory rules limits) :=
  mineFrom_repeatable h directory rules limits _ _ _

end CommitHistory

/-! ### Policies -/

theorem readVersion_repeatable (text : String) : Repeatable (readVersion text) := by
  rw [readVersion]
  split
  · exact .pure _
  · exact .throw _

namespace Policy

/-- The policy is a function of the request, as far as the change log is fixed. -/
structure Repeatable (policy : Policy) : Prop where
  release : ∀ request : PolicyRequest, (∀ log ∈ request.log?, log.Fixed) →
    (policy.release request).Repeatable
  development : ∀ request : PolicyRequest, (∀ log ∈ request.log?, log.Fixed) →
    (policy.development request).Repeatable

theorem markerOnly_repeatable : markerOnly.Repeatable where
  release _ _ :=
    (readVersion_repeatable _).bind fun _ => (Repeatable.report _ _).bind fun _ => .pure _
  development _ _ :=
    (readVersion_repeatable _).bind fun _ => (Repeatable.ofOption _).bind fun _ =>
      (Repeatable.report _ _).bind fun _ => .pure _

theorem history_repeatable {request : PolicyRequest} (h : ∀ log ∈ request.log?, log.Fixed)
    (rules : Rules) : (Conventional.history request rules).Repeatable := by
  rw [Conventional.history]
  cases hlog : request.log? with
  | none => exact (Repeatable.report _ _).bind fun _ => .pure _
  | some log => exact (CommitHistory.mine_repeatable (h log hlog) _ rules _).mapError

theorem suggestRelease_repeatable (rules : Rules) (history : CommitHistory) (current : String) :
    (Conventional.suggestRelease rules history current).Repeatable := by
  refine (Repeatable.report _ _).bind fun _ => (Repeatable.report _ _).bind fun _ => ?_
  refine (Repeatable.report _ _).bind fun _ => (Repeatable.report _ _).bind fun _ => ?_
  refine (readVersion_repeatable _).bind fun _ => (Repeatable.ofOption _).bind fun _ => ?_
  exact (Repeatable.report _ _).bind fun _ => .pure _

theorem conventional_repeatable : conventional.Repeatable where
  release request h := by
    refine (Repeatable.ofExcept _).bind fun config => (Repeatable.ofExcept _).bind fun rules => ?_
    exact (history_repeatable h rules).bind fun history =>
      suggestRelease_repeatable rules history request.version
  development _ _ :=
    (readVersion_repeatable _).bind fun _ => (Repeatable.ofOption _).bind fun _ =>
      (Repeatable.report _ _).bind fun _ => .pure _

end Policy

/-- Every built-in policy is a function of the request. -/
theorem Policies.builtin_repeatable {id : String} {policy : Policy}
    (h : builtin.get id = .ok policy) : policy.Repeatable := by
  have hentry : (id, policy) ∈ builtin.byId.entries := by
    rw [OrderedMap.mem_entries_iff]
    rw [get] at h
    split at h <;> cases h
    assumption
  have hentries : builtin.byId.entries = [("CCSemVerVersionPolicy", Policy.conventional),
    ("ccsemver", Policy.conventional), ("default", Policy.markerOnly)] := rfl
  rw [hentries] at hentry
  simp only [List.mem_cons, Prod.mk.injEq, List.not_mem_nil, or_false] at hentry
  rcases hentry with ⟨-, rfl⟩ | ⟨-, rfl⟩ | ⟨-, rfl⟩
  · exact Policy.conventional_repeatable
  · exact Policy.conventional_repeatable
  · exact Policy.markerOnly_repeatable

end Versioning
