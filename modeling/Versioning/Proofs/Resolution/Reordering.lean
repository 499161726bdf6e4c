import Mathlib.Data.List.Perm.Basic
import Versioning.Proofs.Policy.Repeatable
import Versioning.Proofs.Resolution.Inquiry

/-!
# The order of the modules

When modules are resolved on their own, by policies that repeat themselves and without an
operator, what is decided for a module depends on nothing but the module itself, on whether
it is the first one, and on the version that it was released as in the same run
(`Resolve.DeterminedFor`). The turns of the other modules write other places, so two turns
can be swapped (`Resolver.turnOf_swap`): where they cannot, the modules have the same id, and
neither order succeeds. Hence a run on the same modules in another order comes to the same
registry, as long as the first module stays the first one (`Resolver.execute_perm`).
-/

namespace Versioning

open scoped List

/-- Two places can be written in either order. -/
theorem Registry.record_comm {r r₁ r₂ : Registry} {id id' : ModuleId} {phase phase' : Phase}
    {version version' : String} (h : r.record id phase version = .ok r₁)
    (h' : r₁.record id' phase' version' = .ok r₂) :
    ∃ r', r.record id' phase' version' = .ok r' ∧ r'.record id phase version = .ok r₂ := by
  obtain ⟨hfree, -⟩ := record_eq_ok_iff.1 h
  obtain ⟨hfree', -⟩ := record_eq_ok_iff.1 h'
  -- The places differ, since the first one is taken when the second one is written.
  have hne : ¬(phase' = phase ∧ id' = id) := by
    rintro ⟨rfl, rfl⟩
    cases hfree'.symm.trans (get?_record_self h)
  have hne' : ¬(phase = phase' ∧ id = id') := fun he => hne ⟨he.1.symm, he.2.symm⟩
  have hrecord : r.record id' phase' version' = .ok _ :=
    record_eq_ok_iff.2 ⟨(get?_record_of_ne h hne).symm.trans hfree', rfl⟩
  have hrecord' : Registry.record _ id phase version = .ok _ :=
    record_eq_ok_iff.2 ⟨(get?_record_of_ne hrecord hne').trans hfree, rfl⟩
  refine ⟨_, hrecord, hrecord'.trans (congrArg Except.ok (ext_get? fun id'' phase'' => ?_))⟩
  by_cases hplace : phase'' = phase ∧ id'' = id
  · obtain ⟨rfl, rfl⟩ := hplace
    rw [get?_record_self hrecord', get?_record_of_ne h' hne', get?_record_self h]
  · rw [get?_record_of_ne hrecord' hplace]
    by_cases hplace' : phase'' = phase' ∧ id'' = id'
    · obtain ⟨rfl, rfl⟩ := hplace'
      rw [get?_record_self hrecord, get?_record_self h']
    · rw [get?_record_of_ne hrecord hplace', get?_record_of_ne h' hplace',
        get?_record_of_ne h hplace]

namespace Resolve

/-- A version is written if the registry takes it. -/
theorem run_record_eq_ok_iff {id : ModuleId} {phase : Phase} {version : String} {s s' : Session} :
    (record id phase version).run s = (.ok (), s') ↔
      ∃ registry, s.registry.record id phase version = .ok registry ∧ s' = { s with registry } := by
  rw [run_record]
  cases s.registry.record id phase version with
  | error e => exact iff_of_false nofun nofun
  | ok registry =>
    constructor
    · rintro ⟨⟩
      exact ⟨registry, rfl, rfl⟩
    · rintro ⟨_, ⟨⟩, rfl⟩
      rfl

/-! ### What a computation depends on -/

/-- Two sessions agree on the version that a module is released as. -/
def SameRelease (id : ModuleId) (s t : Session) : Prop :=
  s.registry.get? id .release = t.registry.get? id .release

/-- What the computation comes to is determined by the version that a module is released as, which
    it leaves alone. -/
def DeterminedFor {α : Type} (id : ModuleId) (x : Resolve α) : Prop :=
  ∀ ⦃s t⦄, SameRelease id s t →
    (x.run s).1 = (x.run t).1 ∧ SameRelease id (x.run s).2 (x.run t).2

namespace DeterminedFor

variable {α β : Type} {id : ModuleId}

theorem pure (a : α) : DeterminedFor id (Pure.pure a) :=
  fun _ _ h => ⟨rfl, h⟩

theorem throw (e : Failure) : DeterminedFor id (throw e : Resolve α) :=
  fun _ _ h => ⟨rfl, h⟩

theorem consult {x : Consult α} (hx : x.Repeatable) : DeterminedFor id (Resolve.consult x) :=
  fun s t h => ⟨hx s.journal t.journal, h⟩

theorem inquire {phase : Phase} {m : Module} {request : PolicyRequest} {x : Consult String}
    (hx : x.Repeatable) : DeterminedFor id (Resolve.inquire phase m request x) :=
  fun s t h => ⟨hx s.journal t.journal, h⟩

theorem bind {x : Resolve α} {f : α → Resolve β} (hx : DeterminedFor id x)
    (hf : ∀ a, DeterminedFor id (f a)) : DeterminedFor id (x >>= f) := by
  intro s t h
  obtain ⟨hsame, hafter⟩ := hx h
  rw [Failure.run_bind, Failure.run_bind]
  rcases hs : x.run s with ⟨result, s'⟩
  rcases ht : x.run t with ⟨result', t'⟩
  rw [hs, ht] at hsame hafter
  obtain rfl : result = result' := hsame
  cases result with
  | error e => exact ⟨rfl, hafter⟩
  | ok a => exact hf a hafter

/-- The session may be looked at for the version that the module is released as. -/
theorem get_bind {f : Session → Resolve α} (hsame : ∀ s t, SameRelease id s t → f s = f t)
    (hf : ∀ s, DeterminedFor id (f s)) : DeterminedFor id (get >>= f) := by
  intro s t h
  rw [Failure.run_bind, Failure.run_bind, run_get, run_get]
  dsimp only
  rw [hsame s t h]
  exact hf t h

theorem tryCatch {x : Resolve α} {handler : Failure → Resolve α} (hx : DeterminedFor id x)
    (hh : ∀ e, DeterminedFor id (handler e)) : DeterminedFor id (tryCatch x handler) := by
  intro s t h
  obtain ⟨hsame, hafter⟩ := hx h
  rw [Failure.run_tryCatch, Failure.run_tryCatch]
  rcases hs : x.run s with ⟨result, s'⟩
  rcases ht : x.run t with ⟨result', t'⟩
  rw [hs, ht] at hsame hafter
  obtain rfl : result = result' := hsame
  cases result with
  | error e => exact hh e hafter
  | ok a => exact ⟨rfl, hafter⟩

theorem mapError {f : ReleaseError → ReleaseError} {x : Resolve α} (hx : DeterminedFor id x) :
    DeterminedFor id (Resolve.mapError f x) := by
  intro s t h
  obtain ⟨hsame, hafter⟩ := hx h
  rw [run_mapError, run_mapError, hsame]
  exact ⟨rfl, hafter⟩

end DeterminedFor

/-! ### Runs that repeat each other -/

/-- Whenever the first computation succeeds, so does the second one in any session with the same
    registry, with the same value and the same registry after it. -/
def RepeatedBy {α : Type} (x y : Resolve α) : Prop :=
  ∀ ⦃s s' : Session⦄ ⦃a : α⦄, x.run s = (.ok a, s') → ∀ t : Session, t.registry = s.registry →
    ∃ t', y.run t = (.ok a, t') ∧ t'.registry = s'.registry

namespace RepeatedBy

variable {α β : Type}

theorem pure (a : α) : RepeatedBy (Pure.pure a) (Pure.pure a) := by
  intro s s' b h t ht
  cases h
  exact ⟨t, rfl, ht⟩

theorem trans {x y z : Resolve α} (h : RepeatedBy x y) (h' : RepeatedBy y z) : RepeatedBy x z := by
  intro s s' a hrun t ht
  obtain ⟨t', hrun', ht'⟩ := h hrun t ht
  obtain ⟨u, hrun'', hu⟩ := h' hrun' t rfl
  exact ⟨u, hrun'', hu.trans ht'⟩

theorem bind {x y : Resolve α} {f g : α → Resolve β} (hx : RepeatedBy x y)
    (hf : ∀ a, RepeatedBy (f a) (g a)) : RepeatedBy (x >>= f) (y >>= g) := by
  intro s s' b hrun t ht
  obtain ⟨a, u, hfirst, hnext⟩ := Failure.run_bind_eq_ok_iff.1 hrun
  obtain ⟨u', hfirst', hu'⟩ := hx hfirst t ht
  obtain ⟨t', hnext', ht'⟩ := hf a hnext u' hu'
  exact ⟨t', Failure.run_bind_eq_ok_iff.2 ⟨a, u', hfirst', hnext'⟩, ht'⟩

theorem record (id : ModuleId) (phase : Phase) (version : String) :
    RepeatedBy (Resolve.record id phase version) (Resolve.record id phase version) := by
  intro s s' _ hrun t ht
  obtain ⟨registry, hrecord, rfl⟩ := run_record_eq_ok_iff.1 hrun
  exact ⟨{ t with registry }, run_record_eq_ok_iff.2 ⟨registry, ht ▸ hrecord, rfl⟩, rfl⟩

end RepeatedBy

end Resolve

namespace Resolver

open Resolve (Decides DeterminedFor RepeatedBy SameRelease)

variable {resolver : Resolver} {phase : Phase} {m m' : Module}

variable (resolver) in
/-- Nobody is asked, the change log is fixed, and the policy is a function of the request. -/
structure Reproducible : Prop where
  batch : resolver.config.interactive = false
  log : ∀ log ∈ resolver.log?, log.Fixed
  policy : ∀ policy, resolver.policies.get resolver.config.policy = .ok policy → policy.Repeatable

/-! ### One module -/

theorem askPolicy_determined (h : resolver.Reproducible) (id : ModuleId) (base : String) :
    DeterminedFor id (resolver.askPolicy phase m base) := by
  cases hpolicy : resolver.policies.get resolver.config.policy with
  | error e =>
    intro s t hsame
    rw [run_askPolicy_of_unknown hpolicy, run_askPolicy_of_unknown hpolicy]
    exact ⟨rfl, hsame⟩
  | ok policy =>
    rw [askPolicy_of_known hpolicy]
    refine (DeterminedFor.inquire ?_).bind fun suggestion => ?_
    · -- The policy is asked for a function of the request.
      have hrepeats := h.policy policy hpolicy
      rw [Policy.propose]
      split
      · exact hrepeats.development _ h.log
      · exact hrepeats.release _ h.log
    · exact (DeterminedFor.consult (.report _ _)).bind fun _ => .pure _

theorem suggest_determined (h : resolver.Reproducible) (first : Bool) :
    DeterminedFor m.id (resolver.suggest phase m first) := by
  refine DeterminedFor.get_bind (fun s t hsame => ?_) fun s => ?_
  · -- The proposal starts from the same version.
    have hbase : resolver.baseVersion phase m first s.registry =
        resolver.baseVersion phase m first t.registry := by
      rw [baseVersion, baseVersion, hsame]
    rw [hbase]
  · refine (askPolicy_determined h _ _).tryCatch fun failure => ?_
    cases failure with
    | overflow => exact .throw _
    | error e =>
      dsimp only
      split
      · exact .throw _
      · rw [if_neg (by simp [h.batch])]
        exact .throw _

theorem checked_determined (id : ModuleId) (version : String) :
    DeterminedFor id (checked phase version) := by
  rw [checked]
  split
  · exact .pure _
  · exact .throw _

variable (phase) in
/-- Whether the version of a module is kept, fixed or proposed: no other version plays a part than
    the one that the module is released as. -/
theorem resolveModule_determined (h : resolver.Reproducible) (m : Module) (first : Bool) :
    DeterminedFor m.id (resolver.resolveModule phase m first) := by
  refine DeterminedFor.mapError ?_
  rw [nextVersion]
  split
  · exact (DeterminedFor.consult (.report _ _)).bind fun _ => .pure _
  · split
    · refine (checked_determined _ _).bind fun version => ?_
      exact (DeterminedFor.consult (.report _ _)).bind fun _ => .pure _
    · refine (suggest_determined h first).bind fun suggestion => ?_
      rw [if_neg (by simp [h.batch])]
      exact checked_determined _ _

/-- So the same version is decided in any other session in which the module is released as the same
    version, -/
theorem run_resolveModule_of_sameRelease (h : resolver.Reproducible) {first : Bool}
    {s s' t : Session} {version : String}
    (hrun : (resolver.resolveModule phase m first).run s = (.ok version, s'))
    (hsame : SameRelease m.id s t) :
    ∃ t', (resolver.resolveModule phase m first).run t = (.ok version, t') ∧
      t'.registry = t.registry := by
  have hversion : ((resolver.resolveModule phase m first).run t).1 = .ok version := by
    rw [← (resolveModule_determined phase h m first hsame).1, hrun]
  exact ⟨_, Prod.ext hversion rfl, (resolver.resolveModule_decides m first t).1⟩

/-- and in particular from the same registry. -/
theorem resolveModule_repeated (h : resolver.Reproducible) (m : Module) (first : Bool) :
    RepeatedBy (resolver.resolveModule phase m first) (resolver.resolveModule phase m first) := by
  intro s s' version hrun t ht
  have hsame : SameRelease m.id s t := congrArg (Registry.get? · m.id .release) ht.symm
  obtain ⟨t', hrun', ht'⟩ := run_resolveModule_of_sameRelease h hrun hsame
  have hs := (resolver.resolveModule_decides m first).registry_eq hrun
  exact ⟨t', hrun', ht'.trans (ht.trans hs.symm)⟩

/-! ### Two modules -/

variable (resolver phase) in
/-- The turn of a module behind the first one. -/
def turnOf (m : Module) : Resolve Unit := do
  let version ← resolver.resolveModule phase m false
  Resolve.record m.id phase version

theorem turnOf_repeated (h : resolver.Reproducible) (m : Module) :
    RepeatedBy (resolver.turnOf phase m) (resolver.turnOf phase m) :=
  (resolveModule_repeated h m false).bind fun version => .record m.id phase version

/-- In a turn that succeeds a version is recorded. It would be recorded as well in any other session
    in which the module is released as the same version, provided that its place is free. -/
theorem run_turnOf (h : resolver.Reproducible) {s s' : Session}
    (hrun : (resolver.turnOf phase m).run s = (.ok (), s')) :
    ∃ version, s.registry.record m.id phase version = .ok s'.registry ∧
      ∀ t registry, SameRelease m.id s t → t.registry.record m.id phase version = .ok registry →
        ∃ t', (resolver.turnOf phase m).run t = (.ok (), t') ∧ t'.registry = registry := by
  obtain ⟨version, u, hdecided, hwritten⟩ := Failure.run_bind_eq_ok_iff.1 hrun
  obtain ⟨registry, hrecord, rfl⟩ := Resolve.run_record_eq_ok_iff.1 hwritten
  have hu := (resolver.resolveModule_decides m false).registry_eq hdecided
  refine ⟨version, hu ▸ hrecord, fun t registry' hsame hrecord' => ?_⟩
  obtain ⟨t', hdecided', ht'⟩ := run_resolveModule_of_sameRelease h hdecided hsame
  exact ⟨_, Failure.run_bind_eq_ok_iff.2 ⟨version, t', hdecided',
    Resolve.run_record_eq_ok_iff.2 ⟨registry', ht' ▸ hrecord', rfl⟩⟩, rfl⟩

/-- The turns of two modules can be swapped. -/
theorem turnOf_swap (h : resolver.Reproducible) (m m' : Module) :
    RepeatedBy (resolver.turnOf phase m >>= fun _ => resolver.turnOf phase m')
      (resolver.turnOf phase m' >>= fun _ => resolver.turnOf phase m) := by
  intro s s' _ hrun t ht
  obtain ⟨_, middle, hfirst, hsecond⟩ := Failure.run_bind_eq_ok_iff.1 hrun
  obtain ⟨version, hrecord, hagain⟩ := run_turnOf h hfirst
  obtain ⟨version', hrecord', hagain'⟩ := run_turnOf h hsecond
  obtain ⟨registry, hswapped, hswapped'⟩ := Registry.record_comm hrecord hrecord'
  -- Neither module is released by the turn of the other one, since their ids differ.
  have hne : m'.id ≠ m.id := by
    intro hid
    have htaken := Registry.get?_record_self hrecord
    rw [← hid, (Registry.record_eq_ok_iff.1 hrecord').1] at htaken
    cases htaken
  have hsame' : SameRelease m'.id middle t := by
    rw [SameRelease, ht, Registry.get?_record_of_ne hrecord fun he => hne he.2]
  obtain ⟨u, hfirst', hu⟩ := hagain' t registry hsame' (ht ▸ hswapped)
  have hsame : SameRelease m.id s u := by
    rw [SameRelease, hu, Registry.get?_record_of_ne hswapped fun he => hne he.2.symm]
  obtain ⟨t', hsecond', ht'⟩ := hagain u s'.registry hsame (hu ▸ hswapped')
  exact ⟨t', Failure.run_bind_eq_ok_iff.2 ⟨(), u, hfirst', hsecond'⟩, ht'⟩

/-! ### All modules -/

theorem resolveEach_repeated (h : resolver.Reproducible) (modules : List Module) :
    RepeatedBy (resolver.resolveEach phase false modules)
      (resolver.resolveEach phase false modules) := by
  induction modules with
  | nil => exact .pure ()
  | cons m rest ih =>
    rw [resolveEach_cons]
    exact (turnOf_repeated h m).bind fun _ => ih

/-- Every permutation is made of swaps. -/
theorem resolveEach_perm (h : resolver.Reproducible) {modules modules' : List Module}
    (hperm : modules ~ modules') :
    RepeatedBy (resolver.resolveEach phase false modules)
      (resolver.resolveEach phase false modules') := by
  induction hperm with
  | nil => exact .pure ()
  | cons m _ ih =>
    rw [resolveEach_cons, resolveEach_cons]
    exact (turnOf_repeated h m).bind fun _ => ih
  | swap m m' rest =>
    rw [resolveEach_cons, resolveEach_cons, resolveEach_cons, resolveEach_cons, ← bind_assoc,
      ← bind_assoc]
    exact (turnOf_swap h m' m).bind fun _ => resolveEach_repeated h rest
  | trans _ _ ih ih' => exact ih.trans ih'

/-- The first module stays the first one, for which the versions of the run count. -/
theorem resolve_perm (h : resolver.Reproducible)
    (hauto : resolver.config.autoVersionSubmodules = false) {reactor reactor' : List Module}
    (hperm : reactor ~ reactor') (hfirst : reactor.head? = reactor'.head?) :
    RepeatedBy (resolver.resolve phase reactor) (resolver.resolve phase reactor') := by
  have hauto' : ¬resolver.config.autoVersionSubmodules = true := by simp [hauto]
  rw [resolve_of_not_auto hauto', resolve_of_not_auto hauto']
  cases reactor with
  | nil =>
    rw [List.nil_perm.1 hperm]
    exact .pure ()
  | cons leader rest =>
    obtain ⟨rest', rfl⟩ := List.head?_eq_some_iff.1 hfirst.symm
    rw [resolveEach, resolveEach]
    refine (resolveModule_repeated h leader true).bind fun version => ?_
    refine (RepeatedBy.record leader.id phase version).bind fun _ => ?_
    exact resolveEach_perm h hperm.cons_inv

theorem executePhases_perm (h : resolver.Reproducible)
    (hauto : resolver.config.autoVersionSubmodules = false) {reactor reactor' : List Module}
    (hperm : reactor ~ reactor') (hfirst : reactor.head? = reactor'.head?) (phases : List Phase) :
    RepeatedBy (resolver.executePhases reactor phases)
      (resolver.executePhases reactor' phases) := by
  induction phases with
  | nil => exact .pure ()
  | cons phase phases ih => exact (resolve_perm h hauto hperm hfirst).bind fun _ => ih

/-- When modules are resolved on their own in a batch run, by a policy that is a function of the
    request and with a fixed change log, the order of the modules behind the first one makes no
    difference: either order succeeds if the other one does, and then the registries are
    equal. Modules may have the same id, and then neither succeeds. -/
theorem execute_perm (hbatch : resolver.config.interactive = false)
    (hauto : resolver.config.autoVersionSubmodules = false)
    (hlog : ∀ log ∈ resolver.log?, log.Fixed)
    (hpolicy : ∀ policy, resolver.policies.get resolver.config.policy = .ok policy →
      policy.Repeatable)
    {reactor reactor' : List Module} (hperm : reactor ~ reactor')
    (hfirst : reactor.head? = reactor'.head?) (operator : Operator) :
    let run := (resolver.execute reactor).run (.start operator)
    let run' := (resolver.execute reactor').run (.start operator)
    (run.1 = .ok () ↔ run'.1 = .ok ()) ∧
      (run.1 = .ok () → run'.2.registry = run.2.registry) := by
  intro run run'
  have h : resolver.Reproducible := ⟨hbatch, hlog, hpolicy⟩
  have hthere (hok : run.1 = .ok ()) :=
    executePhases_perm h hauto hperm hfirst _ (Prod.ext hok rfl : run = (.ok (), run.2))
      (.start operator) rfl
  have hback (hok : run'.1 = .ok ()) :=
    executePhases_perm h hauto hperm.symm hfirst.symm _
      (Prod.ext hok rfl : run' = (.ok (), run'.2)) (.start operator) rfl
  refine ⟨⟨fun hok => ?_, fun hok => ?_⟩, fun hok => ?_⟩
  · obtain ⟨t, hrun, -⟩ := hthere hok
    exact congrArg Prod.fst hrun
  · obtain ⟨t, hrun, -⟩ := hback hok
    exact congrArg Prod.fst hrun
  · obtain ⟨t, hrun, hregistry⟩ := hthere hok
    rw [← hregistry]
    exact congrArg (fun r => r.2.registry) hrun

/-- Three modules under conventional commits, of which the last two change places. -/
theorem execute_perm_of_conventional :
    let history : List ChangeSet := [⟨"feat: search", []⟩, ⟨"release", ["1.4"]⟩]
    let resolver : Resolver :=
      ⟨{ interactive := false, policy := "ccsemver" }, .builtin, some (.ofHistory history)⟩
    let parent : Module := .ofId ⟨"g", "parent"⟩ "1.4-SNAPSHOT"
    let core : Module := .ofId ⟨"g", "core"⟩ "1.0-SNAPSHOT"
    let web : Module := .ofId ⟨"g", "web"⟩ "2.0-SNAPSHOT"
    let run (reactor : List Module) := (resolver.execute reactor).run (.start (.scripted []))
    resolver.config.interactive = false ∧ resolver.config.autoVersionSubmodules = false ∧
      (∀ log ∈ resolver.log?, log.Fixed) ∧
      (∀ policy, resolver.policies.get resolver.config.policy = .ok policy → policy.Repeatable) ∧
      [parent, core, web] ~ [parent, web, core] ∧
      [parent, core, web].head? = [parent, web, core].head? ∧
      (run [parent, core, web]).1 = .ok () ∧ (run [parent, web, core]).1 = .ok () ∧
      (run [parent, web, core]).2.registry = (run [parent, core, web]).2.registry ∧
      (run [parent, core, web]).2.registry.get? web.id .development = some "1.6.0-SNAPSHOT" := by
  intro history resolver parent core web run
  have hlog : ∀ log ∈ resolver.log?, log.Fixed := by
    rintro _ ⟨⟩
    exact ChangeLog.fixed_ofHistory history
  have hpolicy (policy : Policy) (h : Policies.builtin.get "ccsemver" = .ok policy) :
      policy.Repeatable := Policies.builtin_repeatable h
  have hperm : [parent, core, web] ~ [parent, web, core] := (List.Perm.swap web core []).cons parent
  have hok : (run [parent, core, web]).1 = .ok () := by decide +kernel
  have hdeveloped : (run [parent, core, web]).2.registry.get? web.id .development =
      some "1.6.0-SNAPSHOT" := by decide +kernel
  obtain ⟨hiff, hregistry⟩ :=
    @execute_perm resolver rfl rfl hlog hpolicy _ _ hperm rfl (.scripted [])
  exact ⟨rfl, rfl, hlog, hpolicy, hperm, rfl, hok, hiff.1 hok, hregistry hok, hdeveloped⟩

end Resolver

end Versioning
