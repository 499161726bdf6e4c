import Mathlib.Data.List.Nodup
import Versioning.Proofs.Resolution.Decision

/-!
# Complete runs

A phase that succeeds has written one version for every module, and phases that succeed have
written one for each of their places (`Slot.grid`). Nothing is skipped and nothing is
written over: a place is written only while it is free, so the places that a
computation writes are new ones (`Resolve.Fills`). Since no place is listed twice in a
registry, a run that succeeds has had no phase and no module twice
(`Resolver.executePhases_complete`).

What is written stays: a phase whose first place is taken fails before it writes anything
(`Resolver.run_resolve_of_taken`).
-/

namespace Versioning

open scoped List

/-- The places of some modules in some phases. -/
def Slot.grid (phases : List Phase) (modules : List Module) : List Slot :=
  phases.flatMap fun phase => modules.map fun m => ⟨phase, m.id⟩

/-- In a grid without repetitions, neither phases nor modules are repeated, unless there are
    none of the other kind. -/
theorem Slot.nodup_of_nodup_grid {phases : List Phase} {modules : List Module}
    (h : (grid phases modules).Nodup) (hphases : phases ≠ []) (hmodules : modules ≠ []) :
    (modules.map (·.id)).Nodup ∧ phases.Nodup := by
  rw [grid, List.nodup_flatMap] at h
  obtain ⟨hrow, hdisjoint⟩ := h
  obtain ⟨phase, hphase⟩ := List.exists_mem_of_ne_nil _ hphases
  obtain ⟨m, hm⟩ := List.exists_mem_of_ne_nil _ hmodules
  constructor
  · have hids := hrow phase hphase
    rw [List.Nodup, List.pairwise_map] at hids ⊢
    exact hids.imp fun hne hid => hne (by rw [hid])
  · -- Two equal phases would share the place of any module.
    refine hdisjoint.imp fun {a b} hab he => ?_
    subst he
    exact hab (List.mem_map_of_mem hm) (List.mem_map_of_mem hm)

theorem Slot.mem_grid {phases : List Phase} {modules : List Module} {phase : Phase}
    {id : ModuleId} : ⟨phase, id⟩ ∈ grid phases modules ↔ phase ∈ phases ∧ ∃ m ∈ modules, m.id = id := by
  simp [grid]

/-- Whenever the computation succeeds, it has written some places that were free, each of them
    once, and no others. -/
def Resolve.Fills {α : Type} (x : Resolve α) (slots : List Slot) : Prop :=
  ∀ s a, (x.run s).1 = .ok a →
    (x.run s).2.registry.slots.keys ~ slots ++ s.registry.slots.keys

namespace Resolve.Fills

variable {α β : Type} {slots slots' : List Slot}

theorem of_decides {P : α → Prop} {x : Resolve α} (h : Decides x P) : Fills x [] := by
  intro s a _
  rw [(h s).1]
  exact .refl _

theorem pure (a : α) : Fills (Pure.pure a) [] :=
  fun _ _ _ => .refl _

theorem bind {x : Resolve α} {f : α → Resolve β} (hx : Fills x slots)
    (hf : ∀ a, Fills (f a) slots') : Fills (x >>= f) (slots ++ slots') := by
  intro s b
  have hfilled := hx s
  rw [Failure.run_bind]
  rcases h : x.run s with ⟨_ | a, s'⟩ <;> rw [h] at hfilled
  · intro hb
    cases hb
  · intro hb
    calc ((f a).run s').2.registry.slots.keys
      _ ~ slots' ++ s'.registry.slots.keys := hf a s' b hb
      _ ~ slots' ++ (slots ++ s.registry.slots.keys) := (hfilled a rfl).append_left _
      _ ~ slots ++ slots' ++ s.registry.slots.keys := by
        rw [← List.append_assoc]
        exact List.perm_append_comm.append_right _

theorem record (id : ModuleId) (phase : Phase) (version : String) :
    Fills (Resolve.record id phase version) [⟨phase, id⟩] := by
  intro s a
  rw [run_record]
  cases h : s.registry.record id phase version with
  | error e =>
    intro ha
    cases ha
  | ok registry => exact fun _ => Registry.keys_record_perm h

end Resolve.Fills

/-- Whenever a place is taken, the computation fails because of that, and writes nothing. -/
def Resolve.Refuses {α : Type} (x : Resolve α) (id : ModuleId) (phase : Phase) : Prop :=
  ∀ s existing, s.registry.get? id phase = some existing →
    (x.run s).2.registry = s.registry ∧
      (x.run s).1 = .error (.error (.registry (.alreadySet phase id.text existing)))

namespace Resolve.Refuses

variable {α β : Type} {id : ModuleId} {phase : Phase}

theorem record_bind (version : String) (f : Unit → Resolve α) :
    Refuses (Resolve.record id phase version >>= f) id phase := by
  intro s existing h
  rw [Failure.run_bind, run_record, Registry.record_eq_error_iff.2 ⟨existing, h, rfl⟩]
  exact ⟨rfl, rfl⟩

theorem report_bind {f : Unit → Resolve α} (severity : Severity) (text : String)
    (hf : Refuses (f ()) id phase) : Refuses (Resolve.report severity text >>= f) id phase := by
  intro s existing h
  rw [Failure.run_bind, run_report]
  exact hf _ existing h

/-- A decision comes first: its failure counts before that of the place. -/
theorem run_bind {P : β → Prop} {x : Resolve β} {f : β → Resolve α} (hx : Decides x P)
    (hf : ∀ b, Refuses (f b) id phase) {s : Session} {existing : String}
    (h : s.registry.get? id phase = some existing) :
    ((x >>= f).run s).2.registry = s.registry ∧
      ((x >>= f).run s).1 = (x.run s).1.bind fun _ =>
        .error (.error (.registry (.alreadySet phase id.text existing))) := by
  have hreg := (hx s).1
  rw [Failure.run_bind]
  rcases hrun : x.run s with ⟨_ | b, s'⟩ <;> rw [hrun] at hreg
  · exact ⟨hreg, rfl⟩
  · have hrefused := hf b s' existing (hreg.symm ▸ h)
    exact ⟨hrefused.1.trans hreg, hrefused.2⟩

end Resolve.Refuses

namespace Resolver

open Resolve (Decides Fills Refuses)

variable (resolver : Resolver) (phase : Phase)

theorem resolveEach_fills (first : Bool) (modules : List Module) :
    Fills (resolver.resolveEach phase first modules) (modules.map fun m => ⟨phase, m.id⟩) := by
  induction modules generalizing first with
  | nil => exact .pure ()
  | cons m rest ih =>
    exact (Fills.of_decides (resolver.resolveModule_decides m first)).bind fun version =>
      (Fills.record m.id phase version).bind fun _ => ih false

theorem propagate_fills (version : String) (modules : List Module) :
    Fills (resolver.propagate phase version modules) (modules.map fun m => ⟨phase, m.id⟩) := by
  induction modules with
  | nil => exact .pure ()
  | cons m rest ih => exact (Fills.record m.id phase _).bind fun _ => ih

/-- A phase that succeeds has written the places of all modules, whether each of them was resolved
    or only the first one. -/
theorem resolve_fills (reactor : List Module) :
    Fills (resolver.resolve phase reactor) (reactor.map fun m => ⟨phase, m.id⟩) := by
  rcases reactor with _ | ⟨m, rest⟩
  · exact .pure ()
  · rw [resolve]
    split
    · refine (Fills.of_decides (resolver.resolveModule_decides m true)).bind fun version => ?_
      refine (Fills.of_decides (Decides.consult _)).bind fun _ => ?_
      exact (Fills.record m.id phase version).bind fun _ => resolver.propagate_fills phase _ rest
    · exact resolver.resolveEach_fills phase true (m :: rest)

/-- Phases that succeed have written the places of all modules. -/
theorem executePhases_fills (reactor : List Module) (phases : List Phase) :
    Fills (resolver.executePhases reactor phases) (Slot.grid phases reactor) := by
  induction phases with
  | nil => exact .pure ()
  | cons phase phases ih => exact (resolver.resolve_fills phase reactor).bind fun _ => ih

/-! ## Taken places -/

variable {phase} {m : Module} {existing : String} {s : Session}

/-- A phase whose first place is taken writes nothing. It fails with what resolving the first
    module fails with, and otherwise because the place is taken. -/
theorem run_resolve_of_taken (h : s.registry.get? m.id phase = some existing)
    (rest : List Module) :
    ((resolver.resolve phase (m :: rest)).run s).2.registry = s.registry ∧
      ((resolver.resolve phase (m :: rest)).run s).1 =
        ((resolver.resolveModule phase m true).run s).1.bind fun _ =>
          .error (.error (.registry (.alreadySet phase m.id.text existing))) := by
  have hdecides : Decides (resolver.resolveModule phase m true) (resolver.Settled phase m) :=
    resolver.resolveModule_decides m true
  rw [resolve]
  split
  · exact Refuses.run_bind hdecides
      (fun version => .report_bind _ _ (.record_bind version _)) h
  · rw [resolveEach]
    exact Refuses.run_bind hdecides (fun version => .record_bind version _) h

/-- So do phases of which the first one is such. -/
theorem run_executePhases_of_taken (h : s.registry.get? m.id phase = some existing)
    (rest : List Module) (later : List Phase) :
    ((resolver.executePhases (m :: rest) (phase :: later)).run s).2.registry = s.registry ∧
      ((resolver.executePhases (m :: rest) (phase :: later)).run s).1 =
        ((resolver.resolveModule phase m true).run s).1.bind fun _ =>
          .error (.error (.registry (.alreadySet phase m.id.text existing))) := by
  obtain ⟨hreg, hfails⟩ := resolver.run_resolve_of_taken h rest
  rw [executePhases, Failure.run_bind]
  rcases hrun : (resolver.resolve phase (m :: rest)).run s with ⟨failure | _, s'⟩ <;>
    rw [hrun] at hreg hfails
  · exact ⟨hreg, hfails⟩
  · cases hm : ((resolver.resolveModule phase m true).run s).1 <;> rw [hm] at hfails <;>
      cases hfails

/-! ## Runs -/

/-- A run that succeeds has given every module exactly one version in every phase, and there is
    nothing else in the registry; no module and no phase is listed twice, unless there are no
    phases or no modules. After it, phases of which the first was executed, for modules of which
    the first has its version, do not succeed and leave the registry as it is. This is an error,
    except where resolving the first module again exceeds the largest number. -/
theorem executePhases_complete {operator : Operator} {phases : List Phase}
    {reactor : List Module}
    (hok : ((resolver.executePhases reactor phases).run (.start operator)).1 = .ok ()) :
    let finished := ((resolver.executePhases reactor phases).run (.start operator)).2.registry
    (phases ≠ [] → reactor ≠ [] → (reactor.map (·.id)).Nodup ∧ phases.Nodup) ∧
    finished.slots.keys ~ Slot.grid phases reactor ∧
    (∀ phase id, (∃ version, finished.get? id phase = some version) ↔
      phase ∈ phases ∧ ∃ m ∈ reactor, m.id = id) ∧
    ∀ (phase : Phase) (m : Module), phase ∈ phases → (∃ m' ∈ reactor, m'.id = m.id) →
      ∀ (later : List Phase) (rest : List Module) (s : Session), s.registry = finished →
        let again := (resolver.executePhases (m :: rest) (phase :: later)).run s
        again.2.registry = finished ∧
          ((∃ e, again.1 = .error (.error e)) ∨ again.1 = .error .overflow ∧
            ((resolver.resolveModule phase m true).run s).1 = .error .overflow) := by
  intro finished
  have hkeys : finished.slots.keys ~ Slot.grid phases reactor := by
    have hfilled := resolver.executePhases_fills reactor phases _ _ hok
    rwa [show (Session.start operator).registry.slots.keys = [] from rfl, List.append_nil] at hfilled
  have htaken (phase : Phase) (id : ModuleId) : (∃ version, finished.get? id phase = some version) ↔
      phase ∈ phases ∧ ∃ m ∈ reactor, m.id = id := by
    rw [← Slot.mem_grid, ← hkeys.mem_iff, OrderedMap.mem_keys_iff, Registry.get?_slots]
  refine ⟨fun hphases hreactor => ?_, hkeys, htaken, ?_⟩
  · exact Slot.nodup_of_nodup_grid (hkeys.nodup_iff.1 finished.slots.nodup_keys) hphases hreactor
  · intro phase m hphase hm later rest s hs again
    obtain ⟨existing, hexisting⟩ := (htaken phase m.id).2 ⟨hphase, hm⟩
    obtain ⟨hreg, hfails⟩ := resolver.run_executePhases_of_taken (hs ▸ hexisting) rest later
    refine ⟨hreg.trans hs, ?_⟩
    rcases hfirst : ((resolver.resolveModule phase m true).run s).1 with (e | _) | version <;>
      rw [hfirst] at hfails
    · exact .inl ⟨e, hfails⟩
    · exact .inr ⟨hfails, rfl⟩
    · exact .inl ⟨_, hfails⟩

/-- A release of two modules, which cannot be done again. -/
theorem release_of_two_complete :
    let resolver : Resolver := ⟨{ interactive := false }, .builtin, none⟩
    let reactor : List Module := [⟨⟨"g", "core"⟩, "core", "1.0-SNAPSHOT", none⟩,
      ⟨⟨"g", "web"⟩, "web", "2.0-SNAPSHOT", none⟩]
    let run := resolver.executePhases reactor [.release, .development]
    let released := run.run (.start (.scripted []))
    released.1 = .ok () ∧
      released.2.registry.slots.keys ~ Slot.grid [.release, .development] reactor ∧
      (run.run released.2).2.registry = released.2.registry ∧
      ∃ e, (run.run released.2).1 = .error (.error e) := by
  intro resolver reactor run released
  have hok : released.1 = .ok () := by decide +kernel
  obtain ⟨-, hkeys, -, hagain⟩ := resolver.executePhases_complete hok
  obtain ⟨hsame, hfails⟩ := hagain .release reactor[0] (by decide)
    ⟨reactor[0], List.mem_cons_self, rfl⟩ [.development] reactor.tail released.2 rfl
  refine ⟨hok, hkeys, hsame, hfails.resolve_right fun h => ?_⟩
  exact absurd h.1 (by decide +kernel)

/-- When a module whose minor number is the largest one is to be developed further under the id of
    a module that has its version, there is no error: its version is computed before it turns out
    that the place is taken. -/
theorem overflow_before_refusal :
    let resolver : Resolver := ⟨{ interactive := false }, .builtin, none⟩
    let reactor (version : String) : List Module := [⟨⟨"g", "app"⟩, "app", version, none⟩]
    let develop (version : String) := resolver.executePhases (reactor version) [.development]
    let developed := (develop "1.0").run (.start (.scripted []))
    developed.1 = .ok () ∧
      ((develop "1.18446744073709551615").run developed.2).1 = .error .overflow := by
  decide +kernel

end Resolver

end Versioning
