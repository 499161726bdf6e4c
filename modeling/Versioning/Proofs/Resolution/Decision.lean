import Versioning.Resolution.Resolver

/-!
# Decisions

Before a version is written into the registry it is decided, by the configuration, the
policy and the operator. A computation *decides* a value with some property if it
leaves the registry as it is, whether it fails or not, and every value that it comes to
has the property (`Resolve.Decides`). Reports, consultations and questions only
matter to the rest of the session.

* `Resolver.nextVersion_decides`: a version that a phase leaves alone is decided as it
  is, and any other so that it carries the marker exactly if the phase expects it, whatever
  the policy proposes and the operator answers.
-/

namespace Versioning

/-- The computation does not touch the registry, and its values have a property. -/
def Resolve.Decides {α : Type} (x : Resolve α) (P : α → Prop) : Prop :=
  ∀ s, (x.run s).2.registry = s.registry ∧ ∀ a, (x.run s).1 = .ok a → P a

namespace Resolve.Decides

variable {α β : Type} {P : α → Prop} {Q : β → Prop}

theorem pure {a : α} (h : P a) : Decides (Pure.pure a) P :=
  fun _ => ⟨rfl, fun _ ha => by cases ha; exact h⟩

theorem throw (e : Failure) : Decides (throw e : Resolve α) P :=
  fun _ => ⟨rfl, fun _ ha => by cases ha⟩

theorem get : Decides (MonadState.get : Resolve Session) fun _ => True :=
  fun _ => ⟨rfl, fun _ _ => trivial⟩

/-- A change of the session that spares the registry. -/
theorem modify {f : Session → Session} (hf : ∀ s, (f s).registry = s.registry) :
    Decides (modify f : Resolve Unit) fun _ => True :=
  fun s => ⟨hf s, fun _ _ => trivial⟩

theorem consult (x : Consult α) : Decides (Resolve.consult x) fun _ => True :=
  fun _ => ⟨rfl, fun _ _ => trivial⟩

theorem inquire {phase : Phase} {m : Module} {request : PolicyRequest} (x : Consult String) :
    Decides (Resolve.inquire phase m request x) fun _ => True :=
  fun _ => ⟨rfl, fun _ _ => trivial⟩

theorem mono {P' : α → Prop} {x : Resolve α} (h : Decides x P) (hP : ∀ a, P a → P' a) :
    Decides x P' :=
  fun s => ⟨(h s).1, fun a ha => hP a ((h s).2 a ha)⟩

theorem bind {x : Resolve α} {f : α → Resolve β} (hx : Decides x P)
    (hf : ∀ a, P a → Decides (f a) Q) : Decides (x >>= f) Q := by
  intro s
  obtain ⟨hreg, hval⟩ := hx s
  rw [Failure.run_bind]
  rcases h : x.run s with ⟨_ | a, s'⟩ <;> rw [h] at hreg hval
  · -- A failure leaves the session to the caller, and comes to no value.
    exact ⟨hreg, fun _ ha => by cases ha⟩
  · obtain ⟨hreg', hval'⟩ := hf a (hval a rfl) s'
    exact ⟨hreg'.trans hreg, hval'⟩

theorem tryCatch {x : Resolve α} {handler : Failure → Resolve α} (hx : Decides x P)
    (hh : ∀ e, Decides (handler e) P) : Decides (tryCatch x handler) P := by
  intro s
  obtain ⟨hreg, hval⟩ := hx s
  rw [Failure.run_tryCatch]
  rcases h : x.run s with ⟨e | a, s'⟩ <;> rw [h] at hreg hval
  · obtain ⟨hreg', hval'⟩ := hh e s'
    exact ⟨hreg'.trans hreg, hval'⟩
  · exact ⟨hreg, hval⟩

theorem mapError {f : ReleaseError → ReleaseError} {x : Resolve α} (hx : Decides x P) :
    Decides (Resolve.mapError f x) P := by
  intro s
  obtain ⟨hreg, hval⟩ := hx s
  refine ⟨hreg, fun a ha => hval a ?_⟩
  have hrun : x.run s = (.ok a, ((Resolve.mapError f x).run s).2) :=
    Resolve.run_mapError_eq_ok_iff.1 (Prod.ext ha rfl)
  rw [hrun]

theorem ofExcept {x : Except ReleaseError α} : Decides (Resolve.ofExcept x) fun _ => True := by
  cases x with
  | ok a => exact pure trivial
  | error e => exact throw _

end Resolve.Decides

/-- The registry is the same after a run of the computation. -/
theorem Resolve.Decides.registry_eq {α : Type} {P : α → Prop} {x : Resolve α} (h : Decides x P)
    {s s' : Session} {result : Except Failure α} (hrun : x.run s = (result, s')) :
    s'.registry = s.registry := by
  rw [← (h s).1, hrun]

namespace Resolver

open Resolve (Decides)

variable (resolver : Resolver) (phase : Phase)

/-- What a phase settles on for a module: its current version, if the phase leaves that alone, and
    otherwise a version that carries the marker exactly if the phase expects it. -/
def Settled (m : Module) (version : String) : Prop :=
  if resolver.keepsCurrent phase m.version then version = m.version
  else isSnapshot version = phase.expectsSnapshot

/-- A proposal may be any text at all, and the policy may do what it likes to come to it. -/
theorem askPolicy_decides (m : Module) (base : String) :
    Decides (resolver.askPolicy phase m base) fun _ => True := by
  rw [askPolicy]
  refine Decides.ofExcept.bind fun policy _ => ?_
  refine (Decides.inquire _).bind fun suggestion _ => ?_
  exact (Decides.consult _).bind fun _ _ => .pure trivial

theorem suggest_decides (m : Module) (first : Bool) :
    Decides (resolver.suggest phase m first) fun _ => True := by
  rw [suggest]
  refine Decides.get.bind fun s _ => ?_
  refine (resolver.askPolicy_decides phase m _).tryCatch fun failure => ?_
  cases failure with
  | overflow => exact .throw _
  | error e =>
    dsimp only
    split
    · exact .throw _
    · split
      · exact (Decides.consult _).bind fun _ _ => resolver.askPolicy_decides phase m _
      · exact .throw _

variable {phase}

theorem checked_decides (version : String) :
    Decides (checked phase version) fun v => isSnapshot v = phase.expectsSnapshot := by
  rw [checked]
  split
  · next hmarker => exact .pure hmarker
  · exact .throw _

/-- However often the operator is asked again, an answer is only accepted if it carries the marker
    exactly if the phase expects it. -/
theorem converse_decides (q : Question) (operator : Operator) :
    Decides (converse phase q operator) fun v => isSnapshot v = phase.expectsSnapshot := by
  induction operator with
  | away failure =>
    refine (Decides.modify ?_).bind fun _ _ => .throw _
    exact fun _ => rfl
  | present reply after ih =>
    rw [converse]
    refine (Decides.modify ?_).bind fun _ _ => ?_
    · exact fun _ => rfl
    cases reply q with
    | error failure => exact .throw _
    | ok answer =>
      dsimp only
      split
      · next hmarker => exact .pure hmarker
      · split
        · exact (Decides.consult _).bind fun _ _ => ih q
        · exact .throw _

/-- The version of a module is settled before it is recorded: a fixed version and a proposal in a
    batch run are checked, and an answer of the operator is asked for until it will do. -/
theorem nextVersion_decides (m : Module) (first : Bool) :
    Decides (resolver.nextVersion phase m first) (resolver.Settled phase m) := by
  rw [nextVersion]
  split
  · next hkeeps =>
    refine (Decides.consult _).bind fun _ _ => .pure ?_
    rw [Settled, if_pos hkeeps]
  · next hkeeps =>
    have hsettled : ∀ v, isSnapshot v = phase.expectsSnapshot → resolver.Settled phase m v := by
      intro v hv
      rwa [Settled, if_neg hkeeps]
    refine Decides.mono ?_ hsettled
    split
    · next version _ =>
      refine (checked_decides version).bind fun v hv => ?_
      exact (Decides.consult _).bind fun _ _ => .pure hv
    · -- Nothing is known of the suggestion: the operator's answer or the suggestion is checked.
      refine (resolver.suggest_decides phase m first).bind fun suggestion _ => ?_
      split
      · exact Decides.get.bind fun s _ => converse_decides _ s.operator
      · exact checked_decides suggestion

theorem resolveModule_decides (m : Module) (first : Bool) :
    Decides (resolver.resolveModule phase m first) (resolver.Settled phase m) :=
  (resolver.nextVersion_decides m first).mapError

end Resolver

end Versioning
