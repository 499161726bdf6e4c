import Versioning.Proofs.Resolution.Phases

/-!
# Where errors come from

The errors of a run are those of its steps (`Resolve.FailsWith`). A phase fails with an error of the
registry or with one that comes up when the version of a module is decided; and a decision fails
with that of the proposal, or else because of the prompt or of the marker of a version
(`Resolver.nextVersion_failsWith`).
-/

namespace Versioning

/-- The errors of the computation have a property. An overflow is no error. -/
def Resolve.FailsWith {α : Type} (x : Resolve α) (P : ReleaseError → Prop) : Prop :=
  ∀ s e, (x.run s).1 = .error (.error e) → P e

namespace Resolve.FailsWith

variable {α β : Type} {P Q : ReleaseError → Prop}

theorem pure (a : α) : FailsWith (Pure.pure a) P :=
  nofun

theorem fail {e : ReleaseError} (h : P e) : FailsWith (Resolve.fail e : Resolve α) P := by
  intro s e' he
  cases he
  exact h

theorem report (severity : Severity) (text : String) : FailsWith (Resolve.report severity text) P :=
  nofun

theorem modify (f : Session → Session) : FailsWith (modify f : Resolve Unit) P :=
  nofun

theorem record (id : ModuleId) (phase : Phase) (version : String)
    (h : ∀ fault, P (.registry fault)) : FailsWith (Resolve.record id phase version) P := by
  intro s e he
  rw [run_record] at he
  split at he
  · cases he
  · next hrecord =>
    obtain ⟨existing, -, rfl⟩ := Registry.record_eq_error_iff.1 hrecord
    cases he
    exact h _

theorem mono {x : Resolve α} (h : FailsWith x P) (hPQ : ∀ e, P e → Q e) : FailsWith x Q :=
  fun s e he => hPQ e (h s e he)

/-- Where the second computation only fails for some values, it is enough to look at those that the
    first one can come to. -/
theorem bind_of {x : Resolve α} {f : α → Resolve β} (hx : FailsWith x P)
    (hf : ∀ s a, (x.run s).1 = .ok a → FailsWith (f a) P) : FailsWith (x >>= f) P := by
  intro s e
  rw [Failure.run_bind]
  rcases hrun : x.run s with ⟨failure | a, t⟩
  · intro he
    cases he
    exact hx s e (congrArg Prod.fst hrun)
  · exact hf s a (congrArg Prod.fst hrun) t e

theorem bind {x : Resolve α} {f : α → Resolve β} (hx : FailsWith x P)
    (hf : ∀ a, FailsWith (f a) P) : FailsWith (x >>= f) P :=
  hx.bind_of fun _ a _ => hf a

/-- What a computation does may depend on the session. -/
theorem get_bind {f : Session → Resolve α} (hf : ∀ s, FailsWith (f s) P) :
    FailsWith (get >>= f) P := by
  intro s
  rw [Failure.run_bind, run_get]
  exact hf s s

theorem overflow : FailsWith (throw .overflow : Resolve α) P :=
  nofun

/-- A handler may rely on what the error is. -/
theorem tryCatch {x : Resolve α} {handler : Failure → Resolve α} (hx : FailsWith x Q)
    (herror : ∀ e, Q e → FailsWith (handler (.error e)) P)
    (hoverflow : FailsWith (handler .overflow) P) : FailsWith (tryCatch x handler) P := by
  intro s e he
  rw [Failure.run_tryCatch] at he
  rcases hrun : x.run s with ⟨(cause | _) | a, t⟩ <;> rw [hrun] at he
  · exact herror cause (hx s cause (congrArg Prod.fst hrun)) t e he
  · exact hoverflow t e he
  · cases he

theorem mapError {f : ReleaseError → ReleaseError} {x : Resolve α}
    (h : FailsWith x fun e => P (f e)) : FailsWith (Resolve.mapError f x) P := by
  intro s e he
  rw [run_mapError] at he
  rcases hrun : (x.run s).1 with (cause | _) | a <;> rw [hrun] at he <;> cases he
  exact h s cause hrun

end Resolve.FailsWith

namespace Resolver

open Resolve (FailsWith)

variable {resolver : Resolver} {phase : Phase} {P : ReleaseError → Prop}

/-! ### Decisions -/

theorem checked_failsWith (version : String) :
    FailsWith (checked phase version) fun e => e.rootCause.kind = .invalidVersion := by
  rw [checked]
  split
  · exact .pure _
  · exact .fail rfl

/-- What goes wrong in a conversation is the prompt, or the marker of a version to release. -/
theorem converse_failsWith (q : Question) (operator : Operator) :
    FailsWith (converse phase q operator) fun e =>
      e.rootCause.kind = .prompt ∨ e.rootCause.kind = .invalidVersion := by
  induction operator with
  | away failure =>
    exact (FailsWith.modify _).bind fun _ => .fail (.inl rfl)
  | present reply after ih =>
    rw [converse]
    refine (FailsWith.modify _).bind fun _ => ?_
    cases reply q with
    | error failure => exact .fail (.inl rfl)
    | ok answer =>
      dsimp only
      split
      · exact .pure _
      · split
        · exact (FailsWith.report _ _).bind fun _ => ih q
        · exact .fail (.inr rfl)

/-- A proposal fails with an error of the policy, which may stand behind another one. -/
theorem suggest_failsWith {m : Module} {first : Bool}
    (hask : ∀ base, FailsWith (resolver.askPolicy phase m base) P)
    (hpolicy : ∀ text e, P e → P (.policy text e)) :
    FailsWith (resolver.suggest phase m first) P := by
  refine .get_bind fun s => (hask _).tryCatch (fun e he => ?_) .overflow
  dsimp only
  split
  · exact .fail he
  · split
    · exact (FailsWith.report _ _).bind fun _ => hask _
    · exact .fail (hpolicy _ e he)

/-- A decision fails with an error of the proposal, or because of the prompt or of the marker. -/
theorem nextVersion_failsWith {m : Module} {first : Bool}
    (hother : ∀ e, e.rootCause.kind = .prompt ∨ e.rootCause.kind = .invalidVersion → P e)
    (hsuggest : FailsWith (resolver.suggest phase m first) P) :
    FailsWith (resolver.nextVersion phase m first) P := by
  have hchecked (version : String) : FailsWith (checked phase version) P :=
    (checked_failsWith version).mono fun e he => hother e (.inr he)
  rw [nextVersion]
  split
  · exact (FailsWith.report _ _).bind fun _ => .pure _
  · split
    · exact (hchecked _).bind fun _ => (FailsWith.report _ _).bind fun _ => .pure _
    · refine hsuggest.bind fun suggestion => ?_
      split
      · exact .get_bind fun s => (converse_failsWith _ s.operator).mono hother
      · exact hchecked suggestion

theorem resolveModule_failsWith {m : Module} {first : Bool}
    (h : FailsWith (resolver.nextVersion phase m first) fun e => P (.inModule m.id.text phase e)) :
    FailsWith (resolver.resolveModule phase m first) P :=
  h.mapError

/-- The errors of a run are those of the registry, and those that come up when the version of a
    module is decided in one of its phases. -/
theorem executePhases_failsWith (hregistry : ∀ fault, P (.registry fault)) {reactor : List Module}
    {phases : List Phase} (hmodules : ∀ phase ∈ phases, ∀ m ∈ reactor, ∀ first,
      FailsWith (resolver.resolveModule phase m first) P) :
    FailsWith (resolver.executePhases reactor phases) P := by
  have hcomposes : Resolve.Composes fun x => FailsWith x P :=
    { pure := .pure
      report := .report
      record := fun id phase version => .record id phase version hregistry
      bind := .bind }
  exact executePhases_composed hcomposes hmodules

end Resolver

end Versioning
