import Versioning.Resolution.Resolver

/-!
# From the turns to the run

The phases of a run are put together from the turns of the modules, from reports and from what is
recorded. So a property that passes from computations to what is put together from them
(`Resolve.Composes`) is one of the whole run if each turn in it has it
(`Resolver.executePhases_composed`).
-/

namespace Versioning

/-- A property of computations that passes to what is put together from them. -/
structure Resolve.Composes (P : ∀ {α : Type}, Resolve α → Prop) : Prop where
  pure {α : Type} (a : α) : P (Pure.pure a : Resolve α)
  report (severity : Severity) (text : String) : P (Resolve.report severity text)
  record (id : ModuleId) (phase : Phase) (version : String) : P (Resolve.record id phase version)
  bind {α β : Type} {x : Resolve α} {f : α → Resolve β} : P x → (∀ a, P (f a)) → P (x >>= f)

namespace Resolver

variable {resolver : Resolver} {phase : Phase} {P : ∀ {α : Type}, Resolve α → Prop}
  (hP : Resolve.Composes P)

include hP

theorem resolveEach_composed {modules : List Module}
    (hmodules : ∀ m ∈ modules, ∀ first, P (resolver.resolveModule phase m first)) (first : Bool) :
    P (resolver.resolveEach phase first modules) := by
  induction modules generalizing first with
  | nil => exact hP.pure ()
  | cons m rest ih =>
    refine hP.bind (hmodules m List.mem_cons_self first) fun version => ?_
    refine hP.bind (hP.record m.id phase version) fun _ => ?_
    exact ih (fun m' hm' => hmodules m' (List.mem_cons_of_mem _ hm')) false

theorem propagate_composed (version : String) (modules : List Module) :
    P (resolver.propagate phase version modules) := by
  induction modules with
  | nil => exact hP.pure ()
  | cons m rest ih => exact hP.bind (hP.record m.id phase _) fun _ => ih

theorem resolve_composed {reactor : List Module}
    (hmodules : ∀ m ∈ reactor, ∀ first, P (resolver.resolveModule phase m first)) :
    P (resolver.resolve phase reactor) := by
  cases reactor with
  | nil => exact hP.pure ()
  | cons leader rest =>
    rw [resolve]
    split
    · refine hP.bind (hmodules leader List.mem_cons_self true) fun version => ?_
      refine hP.bind (hP.report _ _) fun _ => ?_
      refine hP.bind (hP.record leader.id phase version) fun _ => ?_
      exact propagate_composed hP version rest
    · exact resolveEach_composed hP hmodules true

/-- A run has the property if all turns in it have. -/
theorem executePhases_composed {reactor : List Module} {phases : List Phase}
    (hmodules : ∀ phase ∈ phases, ∀ m ∈ reactor, ∀ first,
      P (resolver.resolveModule phase m first)) :
    P (resolver.executePhases reactor phases) := by
  induction phases with
  | nil => exact hP.pure ()
  | cons phase phases ih =>
    refine hP.bind (resolve_composed hP (hmodules phase List.mem_cons_self)) fun _ => ?_
    exact ih fun phase' hphase' => hmodules phase' (List.mem_cons_of_mem _ hphase')

end Resolver

end Versioning
