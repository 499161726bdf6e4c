import Versioning.Proofs.Resolution.Change
import Versioning.Proofs.Resolution.Decision

/-!
# How the registry grows

Resolving only ever adds to the registry: a place that is taken keeps its version, and a
free one is filled at most once (`Registry.Grows`). Whether a phase succeeds or fails
midway, what it has added by then was written for a module of the reactor: for the
first one with the id, since any other with the same id finds the place taken
(`WrittenFor`).

* `Resolver.resolveEach_writes`: each module gets what was settled for it;
* `Resolver.propagate_writes`: each module gets the version that is propagated, or keeps
  its own;
* `Resolver.executePhases_writes`: several phases, each module on its own.
-/

namespace Versioning

/-- Between two states of a registry, places were filled that had been free, with versions that
    have a property; all other places are as before. -/
def Registry.Grows (added : Phase → ModuleId → String → Prop) (before after : Registry) : Prop :=
  ∀ phase id, after.get? id phase = before.get? id phase ∨
    before.get? id phase = none ∧
      ∃ version, after.get? id phase = some version ∧ added phase id version

namespace Registry.Grows

variable {added added' : Phase → ModuleId → String → Prop} {before middle after : Registry}

theorem refl (added : Phase → ModuleId → String → Prop) (r : Registry) : r.Grows added r :=
  fun _ _ => .inl rfl

theorem trans (h : before.Grows added middle) (h' : middle.Grows added after) :
    before.Grows added after := by
  intro phase id
  rcases h' phase id with hsame | ⟨hfree, version, hnew, hadded⟩
  · rw [hsame]
    exact h phase id
  · -- A place that is free in the middle was free from the beginning.
    rcases h phase id with hsame | ⟨-, _, hfilled, -⟩
    · exact .inr ⟨hsame.symm.trans hfree, version, hnew, hadded⟩
    · cases hfree.symm.trans hfilled

theorem mono (h : before.Grows added after)
    (hadded : ∀ phase id version, added phase id version → added' phase id version) :
    before.Grows added' after := by
  intro phase id
  rcases h phase id with hsame | ⟨hfree, version, hnew, hv⟩
  · exact .inl hsame
  · exact .inr ⟨hfree, version, hnew, hadded _ _ _ hv⟩

/-- A version in a place that had been free was added. -/
theorem added_of_free (h : before.Grows added after) {phase : Phase} {id : ModuleId}
    {version : String} (hfree : before.get? id phase = none)
    (hnew : after.get? id phase = some version) : added phase id version := by
  rcases h phase id with hsame | ⟨-, v, hv, hadded⟩
  · cases hfree.symm.trans (hsame.symm.trans hnew)
  · cases hnew.symm.trans hv
    exact hadded

end Registry.Grows

/-- The places that a phase fills for some modules: each is that of a module, the first one with its
    id, and its version has a property. -/
def WrittenFor (phase : Phase) (modules : List Module) (P : Module → String → Prop)
    (place : Phase) (id : ModuleId) (version : String) : Prop :=
  place = phase ∧ ∃ m, modules.find? (fun m => m.id = id) = some m ∧ P m version

/-- From every session, the computation only adds versions with a property to the registry,
    whether it fails or not. -/
def Resolve.Writes {α : Type} (x : Resolve α) (added : Phase → ModuleId → String → Prop) : Prop :=
  ∀ s : Session, s.registry.Grows added (x.run s).2.registry

namespace Resolve.Writes

variable {α β : Type} {added added' : Phase → ModuleId → String → Prop}

theorem pure (a : α) : Writes (Pure.pure a) added :=
  fun s => .refl added s.registry

theorem mono {x : Resolve α} (h : Writes x added)
    (hadded : ∀ phase id version, added phase id version → added' phase id version) :
    Writes x added' :=
  fun s => (h s).mono hadded

theorem bind {x : Resolve α} {f : α → Resolve β} (hx : Writes x added)
    (hf : ∀ a, Writes (f a) added) : Writes (x >>= f) added := by
  have htrans (s t u : Session) (h : s.registry.Grows added t.registry)
      (h' : t.registry.Grows added u.registry) : s.registry.Grows added u.registry :=
    h.trans h'
  exact Changes.bind htrans hx hf

/-- A version that was there is still there. -/
theorem kept {x : Resolve α} (h : Writes x added) {s s' : Session} {result : Except Failure α}
    (hrun : x.run s = (result, s')) {place : Phase} {id : ModuleId} {version : String}
    (hthere : s.registry.get? id place = some version) :
    s'.registry.get? id place = some version := by
  have hgrown := h s place id
  rw [hrun] at hgrown
  rcases hgrown with hsame | ⟨hfree, -⟩
  · exact hsame.trans hthere
  · cases hfree.symm.trans hthere

/-- What is decided may be relied on in what is written. -/
theorem bind_of_decides {P : α → Prop} {x : Resolve α} {f : α → Resolve β} (hx : Decides x P)
    (hf : ∀ a, P a → Writes (f a) added) : Writes (x >>= f) added := by
  intro s
  obtain ⟨hreg, hval⟩ := hx s
  rw [Failure.run_bind]
  rcases h : x.run s with ⟨_ | a, s'⟩ <;> rw [h] at hreg hval
  · rw [← hreg]
    exact .refl added _
  · rw [← hreg]
    exact hf a (hval a rfl) s'

/-- A version is recorded for a module, and then others for the modules after it. -/
theorem record_bind {P : Module → String → Prop} {phase : Phase} {m : Module} {rest : List Module}
    {version : String} {x : Resolve Unit} (hversion : P m version)
    (hx : Writes x (WrittenFor phase rest P)) :
    Writes (Resolve.record m.id phase version >>= fun _ => x) (WrittenFor phase (m :: rest) P) := by
  intro s
  rw [Failure.run_bind, Resolve.run_record]
  cases hrecord : s.registry.record m.id phase version with
  | error e => exact .refl _ _
  | ok registry =>
    intro place id
    have hrest := hx { s with registry } place id
    have hfirst : m.id = id → (m :: rest).find? (fun m => m.id = id) = some m := by
      intro hid
      rw [List.find?_cons_of_pos (by simpa using hid)]
    by_cases hplace : place = phase ∧ id = m.id
    · -- The place of the module is taken by now.
      obtain ⟨rfl, rfl⟩ := hplace
      have htaken := Registry.get?_record_self hrecord
      rcases hrest with hsame | ⟨hfree, -⟩
      · exact .inr ⟨(Registry.record_eq_ok_iff.1 hrecord).1, version, hsame.trans htaken, rfl, m,
          hfirst rfl, hversion⟩
      · cases hfree.symm.trans htaken
    · have hother := Registry.get?_record_of_ne hrecord hplace
      rcases hrest with hsame | ⟨hfree, v, hnew, rfl, m', hfind, hv⟩
      · exact .inl (hsame.trans hother)
      · have hid : ¬m.id = id := fun hid => hplace ⟨rfl, hid.symm⟩
        refine .inr ⟨hother.symm.trans hfree, v, hnew, rfl, m', ?_, hv⟩
        rwa [List.find?_cons_of_neg (by simpa using hid)]

end Resolve.Writes

namespace Resolver

open Resolve (Decides Writes)

variable (resolver : Resolver) {phase : Phase}

/-- Modules that are resolved on their own get what was settled for each. -/
theorem resolveEach_writes (first : Bool) (modules : List Module) :
    Writes (resolver.resolveEach phase first modules)
      (WrittenFor phase modules (resolver.Settled phase)) := by
  induction modules generalizing first with
  | nil => exact .pure ()
  | cons m rest ih =>
    -- A failure, of the decision or of the record, ends the phase, and nothing more is added.
    exact .bind_of_decides (resolver.resolveModule_decides m first) fun version hversion =>
      .record_bind hversion (ih false)

/-- The modules behind the first one get the version that is propagated, or keep their own. -/
theorem propagate_writes (version : String) (modules : List Module) :
    Writes (resolver.propagate phase version modules)
      (WrittenFor phase modules fun m v => v = resolver.propagated phase version m) := by
  induction modules with
  | nil => exact .pure ()
  | cons m rest ih => exact .record_bind rfl ih

/-- The first module keeps what was settled for it when it is propagated. -/
theorem propagated_of_settled {m : Module} {version : String}
    (h : resolver.Settled phase m version) : resolver.propagated phase version m = version := by
  rw [propagated]
  split
  · next hkeeps =>
    rw [Settled, if_pos hkeeps] at h
    exact h.symm
  · rfl

/-- A phase that is resolved for every module on its own. -/
theorem resolve_writes_settled (hauto : resolver.config.autoVersionSubmodules = false)
    (reactor : List Module) :
    Writes (resolver.resolve phase reactor)
      (WrittenFor phase reactor (resolver.Settled phase)) := by
  rcases reactor with _ | ⟨m, rest⟩
  · exact .pure ()
  · rw [resolve, if_neg (by simp [hauto])]
    exact resolver.resolveEach_writes true (m :: rest)

/-- A phase that is resolved for the first module: every module gets what was settled for that one,
    or keeps its own version. -/
theorem resolve_writes_propagated (hauto : resolver.config.autoVersionSubmodules = true)
    (m : Module) (rest : List Module) :
    Writes (resolver.resolve phase (m :: rest)) (WrittenFor phase (m :: rest) fun m' v =>
      ∃ version, resolver.Settled phase m version ∧ v = resolver.propagated phase version m') := by
  rw [resolve, if_pos hauto]
  refine .bind_of_decides (resolver.resolveModule_decides m true) fun version hversion => ?_
  refine .bind_of_decides (Decides.consult _) fun _ _ => .record_bind ?_ ?_
  · -- The first module: what it gets is what would be propagated to it.
    exact ⟨version, hversion, (resolver.propagated_of_settled hversion).symm⟩
  · refine (resolver.propagate_writes version rest).mono fun place id v => ?_
    rintro ⟨hplace, m', hfind, hv⟩
    exact ⟨hplace, m', hfind, version, hversion, hv⟩

/-- Several phases, each resolved for every module on its own. -/
theorem executePhases_writes (hauto : resolver.config.autoVersionSubmodules = false)
    (reactor : List Module) (phases : List Phase) :
    Writes (resolver.executePhases reactor phases) fun phase id version =>
      phase ∈ phases ∧ ∃ m, reactor.find? (fun m => m.id = id) = some m ∧
        resolver.Settled phase m version := by
  induction phases with
  | nil => exact .pure ()
  | cons phase phases ih =>
    refine .bind ((resolver.resolve_writes_settled hauto reactor).mono ?_) fun _ => ih.mono ?_
    · rintro _ id version ⟨rfl, hwritten⟩
      exact ⟨List.mem_cons_self, hwritten⟩
    · rintro place id version ⟨hplace, hwritten⟩
      exact ⟨List.mem_cons_of_mem _ hplace, hwritten⟩

variable (phase) in
/-- In any case, a phase writes only its own versions, -/
theorem resolve_writes (reactor : List Module) :
    Writes (resolver.resolve phase reactor) fun place _ _ => place = phase := by
  by_cases hauto : resolver.config.autoVersionSubmodules = true
  · cases reactor with
    | nil => exact .pure ()
    | cons leader rest =>
      exact (resolver.resolve_writes_propagated hauto leader rest).mono fun _ _ _ h => h.1
  · exact (resolver.resolve_writes_settled (by simpa using hauto) reactor).mono fun _ _ _ h => h.1

/-- and several phases write only theirs. -/
theorem executePhases_writes_phases (reactor : List Module) (phases : List Phase) :
    Writes (resolver.executePhases reactor phases) fun place _ _ => place ∈ phases := by
  induction phases with
  | nil => exact .pure ()
  | cons phase phases ih =>
    refine .bind ((resolver.resolve_writes phase reactor).mono ?_) fun _ => ih.mono ?_
    · exact fun place _ _ hplace => hplace ▸ List.mem_cons_self
    · exact fun place _ _ hplace => List.mem_cons_of_mem _ hplace

end Resolver

end Versioning
