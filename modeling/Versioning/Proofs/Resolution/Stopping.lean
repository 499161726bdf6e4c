import Mathlib.Data.List.Nodup
import Versioning.Proofs.Resolution.Turn

/-!
# Where a phase stops

When a phase fails, it has come to some module of the reactor and no further. The modules
before that one have got their versions, and nothing else has happened to the registry
(`Registry.Gains`). The module itself and those behind it get nothing.

The turn of a module goes in one of three ways (`Resolve.Turn`): its version cannot be
decided, or its place is taken, or the version is recorded and the phase goes on. So there are
two reasons to stop at a module (`Resolver.StopsAt`), and they can be told apart by the
error (`Resolver.resolve_stops`).
-/

namespace Versioning

/-- Between two states of a registry, some modules got one version each in a phase, in places that
    had been free; all other places are as before. -/
structure Registry.Gains (phase : Phase) (modules : List Module) (before after : Registry) :
    Prop where
  /-- Each of them got a new version, -/
  added : ∀ m ∈ modules, before.get? m.id phase = none ∧
    ∃ version, after.get? m.id phase = some version
  /-- and none of them got a second one. -/
  nodup : (modules.map (·.id)).Nodup
  frame : ∀ place id, ¬(place = phase ∧ ∃ m ∈ modules, m.id = id) →
    after.get? id place = before.get? id place

namespace Registry.Gains

variable {phase : Phase} {m : Module} {modules : List Module} {before middle after : Registry}

theorem nil (phase : Phase) (r : Registry) : r.Gains phase [] r where
  added := nofun
  nodup := .nil
  frame _ _ _ := rfl

/-- Without modules nothing changes. -/
theorem eq_of_nil (h : before.Gains phase [] after) : after = before :=
  ext_get? fun id place => h.frame place id fun hplace => nomatch hplace.2

/-- A version is recorded for a module, and then others for the modules after it. -/
theorem cons {version : String} (h : before.record m.id phase version = .ok middle)
    (hrest : middle.Gains phase modules after) : before.Gains phase (m :: modules) after := by
  have htaken : middle.get? m.id phase = some version := get?_record_self h
  -- The places of the later modules were free when that of the first one was taken.
  have hne : ∀ m' ∈ modules, m'.id ≠ m.id := by
    intro m' hm' hid
    have hfree := (hrest.added m' hm').1
    rw [hid] at hfree
    cases hfree.symm.trans htaken
  refine ⟨fun m' hm' => ?_, ?_, fun place id hplace => ?_⟩
  · rcases List.mem_cons.1 hm' with rfl | hm'
    · refine ⟨(record_eq_ok_iff.1 h).1, version, (hrest.frame phase m'.id ?_).trans htaken⟩
      rintro ⟨-, m'', hm'', hid⟩
      exact hne m'' hm'' hid
    · obtain ⟨hfree, hnew⟩ := hrest.added m' hm'
      exact ⟨(get?_record_of_ne h fun he => hne m' hm' he.2).symm.trans hfree, hnew⟩
  · rw [List.map_cons, List.nodup_cons, List.mem_map]
    refine ⟨?_, hrest.nodup⟩
    rintro ⟨m', hm', hid⟩
    exact hne m' hm' hid
  · calc after.get? id place
      _ = middle.get? id place := by
        refine hrest.frame place id fun hrest => hplace ?_
        exact hrest.imp_right fun ⟨m', hm', hid⟩ => ⟨m', List.mem_cons_of_mem _ hm', hid⟩
      _ = before.get? id place := by
        refine get?_record_of_ne h fun he => hplace ?_
        exact ⟨he.1, m, List.mem_cons_self, he.2.symm⟩

end Registry.Gains

namespace Resolver

variable (resolver : Resolver) (phase : Phase)

/-- Why a phase stops at a module, given what the decision of its version comes to: there is no
    version, or the place for it is taken. -/
inductive StopsAt (m : Module) (registry : Registry) :
    Except Failure String → ReleaseError → Prop
  | undecided {cause : ReleaseError} : StopsAt m registry
      (.error (.error (.inModule m.id.text phase cause))) (.inModule m.id.text phase cause)
  | taken {version existing : String} : registry.get? m.id phase = some existing →
      StopsAt m registry (.ok version) (.registry (.alreadySet phase m.id.text existing))

variable {resolver phase} in
/-- An error says for which module and phase it came up. -/
theorem exists_inModule_of_resolveModule {m : Module} {first : Bool} {s : Session}
    {e : ReleaseError} (h : ((resolver.resolveModule phase m first).run s).1 = .error (.error e)) :
    ∃ cause, e = .inModule m.id.text phase cause := by
  rw [resolveModule, Resolve.run_mapError] at h
  rcases hrun : ((resolver.nextVersion phase m first).run s).1 with (cause | _) | version <;>
    rw [hrun] at h <;> cases h
  exact ⟨cause, rfl⟩

variable {resolver phase} {s stopped : Session} {e : ReleaseError} {m : Module}

namespace StopsAt

variable {registry : Registry} {outcome : Except Failure String} {version : String}

/-- A version that is decided can only be refused by the registry. -/
theorem exists_fault (h : StopsAt phase m registry (.ok version) e) :
    ∃ fault, e = .registry fault := by
  cases h
  exact ⟨_, rfl⟩

theorem kind (h : StopsAt phase m registry outcome e) :
    (∃ cause, e = .inModule m.id.text phase cause) ∨ ∃ fault, e = .registry fault := by
  cases h with
  | undecided => exact .inl ⟨_, rfl⟩
  | taken => exact .inr ⟨_, rfl⟩

/-- The error tells the two reasons apart. -/
theorem isRegistry_iff (h : StopsAt phase m registry outcome e) :
    (∃ fault, e = .registry fault) ↔ (∃ version, outcome = .ok version) ∧
      ∃ existing, registry.get? m.id phase = some existing := by
  cases h with
  | undecided => exact iff_of_false nofun nofun
  | taken htaken => exact iff_of_true ⟨_, rfl⟩ ⟨⟨_, rfl⟩, _, htaken⟩

end StopsAt

/-! ### Modules on their own -/

variable (resolver phase) in
/-- The version of a module behind others, when each is resolved on its own. -/
def decisionBehind (first : Bool) (done : List Module) (m : Module) : Resolve String := do
  resolver.resolveEach phase first done
  resolver.resolveModule phase m (first && done.isEmpty)

theorem decisionBehind_nil (first : Bool) :
    resolver.decisionBehind phase first [] m = resolver.resolveModule phase m first := by
  rw [decisionBehind, resolveEach, pure_bind, List.isEmpty_nil, Bool.and_true]

/-- Once the version of a module is recorded, the others come behind what is left. -/
theorem run_decisionBehind_cons {first : Bool} {version : String} {t : Session}
    {registry : Registry}
    (hrun : (resolver.resolveModule phase m first).run s = (.ok version, t))
    (hrecord : t.registry.record m.id phase version = .ok registry) (done : List Module)
    (m' : Module) : (resolver.decisionBehind phase first (m :: done) m').run s =
      (resolver.decisionBehind phase false done m').run { t with registry } := by
  simp only [decisionBehind, resolveEach, bind_assoc, Failure.run_bind, hrun, Resolve.run_record,
    hrecord, List.isEmpty_cons, Bool.and_false, Bool.false_and]

theorem resolveEach_stops {first : Bool} {modules : List Module}
    (h : (resolver.resolveEach phase first modules).run s = (.error (.error e), stopped)) :
    ∃ done m rest, modules = done ++ m :: rest ∧
      s.registry.Gains phase done stopped.registry ∧
      StopsAt phase m stopped.registry
        ((resolver.decisionBehind phase first done m).run s).1 e := by
  induction modules generalizing first s with
  | nil => cases h
  | cons m rest ih =>
    have hturn := resolver.resolveEach_turn phase first m rest s
    rw [h] at hturn
    cases hturn with
    | undecided hrun hreg =>
      -- Nothing was recorded before the first module.
      obtain ⟨cause, rfl⟩ := exists_inModule_of_resolveModule (congrArg Prod.fst hrun)
      refine ⟨[], m, rest, rfl, hreg ▸ .nil phase _, ?_⟩
      rw [decisionBehind_nil, hrun]
      exact .undecided
    | taken hrun hreg htaken =>
      refine ⟨[], m, rest, rfl, hreg ▸ .nil phase _, ?_⟩
      rw [decisionBehind_nil, hrun]
      exact .taken (hreg ▸ htaken)
    | recorded hrun hreg hrecord hnext =>
      -- The phase goes on behind the module, and stops at a later one.
      obtain ⟨done, m', rest', rfl, hgains, hstops⟩ := ih hnext
      refine ⟨m :: done, m', rest', rfl, .cons hrecord hgains, ?_⟩
      rwa [run_decisionBehind_cons hrun (hreg ▸ hrecord)]

/-! ### The version of the first module for all -/

/-- While a version is propagated nothing is left to decide, so the phase only stops at a taken
    place. -/
theorem propagate_stops {version : String} {modules : List Module}
    (h : (resolver.propagate phase version modules).run s = (.error (.error e), stopped)) :
    ∃ done m rest, modules = done ++ m :: rest ∧
      s.registry.Gains phase done stopped.registry ∧
      StopsAt phase m stopped.registry (.ok (resolver.propagated phase version m)) e := by
  induction modules generalizing s with
  | nil => cases h
  | cons m rest ih =>
    have hturn := resolver.propagate_turn phase version m rest s
    rw [h] at hturn
    cases hturn with
    | undecided hrun => cases hrun
    | taken hrun hreg htaken =>
      exact ⟨[], m, rest, rfl, hreg ▸ .nil phase _, .taken (hreg ▸ htaken)⟩
    | recorded hrun hreg hrecord hnext =>
      cases hrun
      obtain ⟨done, m', rest', rfl, hgains, hstops⟩ := ih hnext
      exact ⟨m :: done, m', rest', rfl, .cons hrecord hgains, hstops⟩

variable (resolver phase) in
/-- How the version of a module comes about in a phase, after those of the modules before it. -/
def decision (done : List Module) (m : Module) : Resolve String :=
  if resolver.config.autoVersionSubmodules then
    match done with
    | [] => resolver.resolveModule phase m true
    | leader :: _ => return resolver.propagated phase (← resolver.resolveModule phase leader true) m
  else resolver.decisionBehind phase true done m

theorem run_decision_cons_of_auto (hauto : resolver.config.autoVersionSubmodules = true)
    {leader : Module} {version : String}
    (h : ((resolver.resolveModule phase leader true).run s).1 = .ok version) (done : List Module) :
    ((resolver.decision phase (leader :: done) m).run s).1 =
      .ok (resolver.propagated phase version m) := by
  rw [decision, if_pos hauto, Failure.run_bind]
  rcases hrun : (resolver.resolveModule phase leader true).run s with ⟨_ | version', t⟩ <;>
    rw [hrun] at h <;> cases h
  rfl

variable (phase s) in
/-- Whether there is a version for a module only depends on the first one, if the version of that is
    given to all. -/
theorem exists_decision_iff_of_auto (hauto : resolver.config.autoVersionSubmodules = true)
    {leader : Module} {others done rest : List Module} (h : leader :: others = done ++ m :: rest) :
    (∃ version, ((resolver.decision phase done m).run s).1 = .ok version) ↔
      ∃ version, ((resolver.resolveModule phase leader true).run s).1 = .ok version := by
  cases done with
  | nil =>
    obtain ⟨rfl, -⟩ := List.cons.inj h
    rw [decision, if_pos hauto]
  | cons leader' done =>
    obtain ⟨rfl, -⟩ := List.cons.inj h
    refine ⟨?_, fun ⟨version, hversion⟩ => ⟨_, run_decision_cons_of_auto hauto hversion done⟩⟩
    rintro ⟨version, hversion⟩
    rw [decision, if_pos hauto] at hversion
    obtain ⟨led, t, hled, -⟩ := Failure.run_bind_eq_ok_iff.1 (Prod.ext hversion rfl)
    exact ⟨led, congrArg Prod.fst hled⟩

/-- When the version of the first module is given to all, only the first turn can fail for another
    reason than a taken place. -/
theorem resolve_stops_of_auto (hauto : resolver.config.autoVersionSubmodules = true)
    {reactor : List Module}
    (h : (resolver.resolve phase reactor).run s = (.error (.error e), stopped)) :
    ∃ done m rest, reactor = done ++ m :: rest ∧
      s.registry.Gains phase done stopped.registry ∧
      StopsAt phase m stopped.registry ((resolver.decision phase done m).run s).1 e ∧
      (done ≠ [] → ∃ version, ((resolver.decision phase done m).run s).1 = .ok version) := by
  cases reactor with
  | nil => cases h
  | cons leader rest =>
    have hturn := resolver.resolve_turn_of_auto phase hauto leader rest s
    have hdecision : ((resolver.leading phase leader (rest.length + 1)).run s).1 =
        ((resolver.decision phase [] leader).run s).1 := by
      rw [run_leading, decision, if_pos hauto]
    rw [h] at hturn
    cases hturn with
    | undecided hrun hreg =>
      obtain ⟨cause, rfl⟩ := exists_inModule_of_resolveModule
        ((run_leading leader _).symm.trans (congrArg Prod.fst hrun))
      refine ⟨[], leader, rest, rfl, hreg ▸ .nil phase _, ?_, fun hne => absurd rfl hne⟩
      rw [← hdecision, hrun]
      exact .undecided
    | taken hrun hreg htaken =>
      refine ⟨[], leader, rest, rfl, hreg ▸ .nil phase _, ?_, fun hne => absurd rfl hne⟩
      rw [← hdecision, hrun]
      exact .taken (hreg ▸ htaken)
    | recorded hrun hreg hrecord hnext =>
      -- The version is there, so what stops the phase now is a place that is taken.
      obtain ⟨done, m, rest', rfl, hgains, hstops⟩ := propagate_stops hnext
      have hversion : ((resolver.decision phase (leader :: done) m).run s).1 = .ok _ :=
        run_decision_cons_of_auto hauto ((run_leading leader _).symm.trans (congrArg Prod.fst hrun))
          done
      refine ⟨leader :: done, m, rest', rfl, .cons hrecord hgains, ?_, fun _ => ⟨_, hversion⟩⟩
      rwa [hversion]

/-- When a phase fails, there is a module that it has come to: those before it have got one version
    each, and nothing else has changed in the registry. The error is about this module and phase,
    or about the registry, and it is about the registry exactly if the version of the module is
    decided and its place is taken. When the version of the first module is given to all and
    there is none, the registry is as it was; and otherwise the error is about the registry. -/
theorem resolve_stops {reactor : List Module}
    (h : (resolver.resolve phase reactor).run s = (.error (.error e), stopped)) :
    ∃ done m rest, reactor = done ++ m :: rest ∧
      s.registry.Gains phase done stopped.registry ∧
      ((∃ cause, e = .inModule m.id.text phase cause) ∨ ∃ fault, e = .registry fault) ∧
      ((∃ fault, e = .registry fault) ↔
        (∃ version, ((resolver.decision phase done m).run s).1 = .ok version) ∧
          ∃ existing, stopped.registry.get? m.id phase = some existing) ∧
      (resolver.config.autoVersionSubmodules = true → ∀ leader others, reactor = leader :: others →
        (∀ failure, ((resolver.resolveModule phase leader true).run s).1 = .error failure →
          stopped.registry = s.registry) ∧
        ∀ version, ((resolver.resolveModule phase leader true).run s).1 = .ok version →
          ∃ fault, e = .registry fault) := by
  by_cases hauto : resolver.config.autoVersionSubmodules = true
  · obtain ⟨done, m, rest, hreactor, hgains, hstops, hok⟩ := resolve_stops_of_auto hauto h
    refine ⟨done, m, rest, hreactor, hgains, hstops.kind, hstops.isRegistry_iff, ?_⟩
    intro _ leader others hleader
    have hdecision := exists_decision_iff_of_auto phase s hauto (hleader.symm.trans hreactor)
    refine ⟨fun failure hfailure => ?_, fun version hversion => ?_⟩
    · -- Behind the first module its version would be there.
      have hfirst : done = [] := by
        refine Classical.byContradiction fun hne => ?_
        obtain ⟨version, hversion⟩ := hdecision.1 (hok hne)
        cases hfailure.symm.trans hversion
      exact (hfirst ▸ hgains).eq_of_nil
    · obtain ⟨version', hversion'⟩ := hdecision.2 ⟨version, hversion⟩
      exact (hversion' ▸ hstops).exists_fault
  · rw [resolve_of_not_auto hauto] at h
    obtain ⟨done, m, rest, hreactor, hgains, hstops⟩ := resolveEach_stops h
    have hdecision : resolver.decision phase done m = resolver.decisionBehind phase true done m :=
      if_neg hauto
    rw [← hdecision] at hstops
    exact ⟨done, m, rest, hreactor, hgains, hstops.kind, hstops.isRegistry_iff,
      fun hauto' => absurd hauto' hauto⟩

/-- The version of the second of three modules cannot be read: the first one has its version by
    then, and the third one gets none. -/
theorem stops_at_unreadable_version :
    let resolver : Resolver := ⟨{ interactive := false }, .builtin, none⟩
    let reactor : List Module := [.ofId ⟨"g", "core"⟩ "1.0-SNAPSHOT", .ofId ⟨"g", "web"⟩ "foo",
      .ofId ⟨"g", "docs"⟩ "1.0-SNAPSHOT"]
    let run := (resolver.resolve .development reactor).run (.start (.scripted []))
    let cause := ReleaseError.versionFormat (.unreadable "foo")
    let e := ReleaseError.inModule "g:web" .development
      (.policy ("Error parsing version, cannot determine next version: " ++ cause.message) cause)
    run.1 = .error (.error e) ∧
      (∃ done m rest, reactor = done ++ m :: rest ∧ m.id.text = "g:web" ∧
        Registry.empty.Gains .development done run.2.registry) ∧
      run.2.registry.get? ⟨"g", "core"⟩ .development = some "1.1-SNAPSHOT" ∧
      run.2.registry.get? ⟨"g", "web"⟩ .development = none ∧
      run.2.registry.get? ⟨"g", "docs"⟩ .development = none := by
  intro resolver reactor run cause e
  have hfails : run.1 = .error (.error e) := by decide +kernel
  obtain ⟨done, m, rest, hreactor, hgains, hkind, -⟩ :=
    resolve_stops (Prod.ext hfails rfl : run = (.error (.error e), run.2))
  have hm : m.id.text = "g:web" := by
    rcases hkind with ⟨cause', he⟩ | ⟨fault, he⟩
    · exact (ReleaseError.inModule.inj he).1.symm
    · exact absurd he ReleaseError.noConfusion
  exact ⟨hfails, ⟨done, m, rest, hreactor, hm, hgains⟩, by decide +kernel, by decide +kernel,
    by decide +kernel⟩

end Resolver

end Versioning
