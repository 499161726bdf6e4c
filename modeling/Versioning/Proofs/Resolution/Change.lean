import Versioning.Resolution.Resolver

/-!
# What a computation does to a session

Many properties of a computation say how the session after it is related to the one before
it, whether it fails or not (`Resolve.Changes`). If the relation is reflexive and transitive,
computations that are put together from such computations have the property, too.
-/

namespace Versioning

namespace Resolve

/-- Whatever the computation comes to, the session after it is related to the one before it. -/
def Changes {α : Type} (R : Session → Session → Prop) (x : Resolve α) : Prop :=
  ∀ s, R s (x.run s).2

namespace Changes

variable {α β : Type} {R : Session → Session → Prop}

theorem pure (hrefl : ∀ s, R s s) (a : α) : Changes R (Pure.pure a) :=
  hrefl

theorem throw (hrefl : ∀ s, R s s) (e : Failure) : Changes R (throw e : Resolve α) :=
  hrefl

theorem ofExcept (hrefl : ∀ s, R s s) (x : Except ReleaseError α) :
    Changes R (Resolve.ofExcept x) := by
  cases x with
  | ok a => exact pure hrefl a
  | error e => exact throw hrefl _

theorem bind (htrans : ∀ s t u, R s t → R t u → R s u) {x : Resolve α} {f : α → Resolve β}
    (hx : Changes R x) (hf : ∀ a, Changes R (f a)) : Changes R (x >>= f) := by
  intro s
  have hfirst := hx s
  rw [Failure.run_bind]
  rcases h : x.run s with ⟨_ | a, s'⟩ <;> rw [h] at hfirst
  · exact hfirst
  · exact htrans s s' _ hfirst (hf a s')

/-- What follows a look at the session may rely on it. -/
theorem get_bind {f : Session → Resolve α} (hf : ∀ s, R s ((f s).run s).2) :
    Changes R (get >>= f) := by
  intro s
  rw [Failure.run_bind, run_get]
  exact hf s

theorem tryCatch (htrans : ∀ s t u, R s t → R t u → R s u) {x : Resolve α}
    {handler : Failure → Resolve α} (hx : Changes R x) (hh : ∀ e, Changes R (handler e)) :
    Changes R (tryCatch x handler) := by
  intro s
  have hfirst := hx s
  rw [Failure.run_tryCatch]
  rcases h : x.run s with ⟨e | a, s'⟩ <;> rw [h] at hfirst
  · exact htrans s s' _ hfirst (hh e s')
  · exact hfirst

theorem mapError {f : ReleaseError → ReleaseError} {x : Resolve α} (hx : Changes R x) :
    Changes R (Resolve.mapError f x) :=
  hx

end Changes

/-- The computation keeps a property of sessions. -/
def Keeps {α : Type} (P : Session → Prop) (x : Resolve α) : Prop :=
  Changes (fun s t => P s → P t) x

namespace Keeps

variable {α β : Type} {P : Session → Prop}

theorem pure (a : α) : Keeps P (Pure.pure a) :=
  Changes.pure (fun _ => id) a

theorem throw (e : Failure) : Keeps P (throw e : Resolve α) :=
  Changes.throw (fun _ => id) e

theorem ofExcept (x : Except ReleaseError α) : Keeps P (Resolve.ofExcept x) :=
  Changes.ofExcept (fun _ => id) x

theorem bind {x : Resolve α} {f : α → Resolve β} (hx : Keeps P x) (hf : ∀ a, Keeps P (f a)) :
    Keeps P (x >>= f) :=
  Changes.bind (fun _ _ _ h h' hs => h' (h hs)) hx hf

theorem get_bind {f : Session → Resolve α} (hf : ∀ s, P s → P ((f s).run s).2) :
    Keeps P (get >>= f) :=
  Changes.get_bind hf

theorem tryCatch {x : Resolve α} {handler : Failure → Resolve α} (hx : Keeps P x)
    (hh : ∀ e, Keeps P (handler e)) : Keeps P (tryCatch x handler) :=
  Changes.tryCatch (fun _ _ _ h h' hs => h' (h hs)) hx hh

theorem mapError {f : ReleaseError → ReleaseError} {x : Resolve α} (hx : Keeps P x) :
    Keeps P (Resolve.mapError f x) :=
  hx

end Keeps

end Resolve

end Versioning
