import Versioning.Proofs.Resolution.Growth

/-!
# Turns

In a phase one module comes after the other. The turn of a module goes in one of three ways
(`Resolve.Turn`): its version cannot be decided, or its place is taken, or the version is
recorded and the phase goes on. A phase that succeeds has recorded what was decided in
each turn, in a session with the versions of the other phases as they were; and the turn that
decides about a module is its own or that of the first one (`Resolver.resolve_decided`).
-/

namespace Versioning

namespace Resolve

/-- How it can go when a version is decided and recorded before a computation goes on: what all of
    them come to together. -/
inductive Turn {α : Type} (decision : Resolve String) (id : ModuleId) (phase : Phase)
    (next : String → Resolve α) (s : Session) : Except Failure α × Session → Prop
  | undecided {failure : Failure} {t : Session} :
    decision.run s = (.error failure, t) → t.registry = s.registry →
      Turn decision id phase next s (.error failure, t)
  | taken {version existing : String} {t : Session} :
    decision.run s = (.ok version, t) → t.registry = s.registry →
      s.registry.get? id phase = some existing →
      Turn decision id phase next s
        (.error (.error (.registry (.alreadySet phase id.text existing))), t)
  | recorded {version : String} {t : Session} {registry : Registry}
      {result : Except Failure α × Session} :
    decision.run s = (.ok version, t) → t.registry = s.registry →
      s.registry.record id phase version = .ok registry →
      (next version).run { t with registry } = result →
      Turn decision id phase next s result

/-- There is no other way. -/
theorem turn {α : Type} {P : String → Prop} {decision : Resolve String} (h : Decides decision P)
    (id : ModuleId) (phase : Phase) (next : String → Resolve α) (s : Session) :
    Turn decision id phase next s
      ((do let version ← decision; record id phase version; next version).run s) := by
  have hreg := (h s).1
  rw [Failure.run_bind]
  rcases hrun : decision.run s with ⟨failure | version, t⟩ <;> rw [hrun] at hreg
  · exact .undecided hrun hreg
  · -- The registry is as before the decision when the version is recorded.
    dsimp only
    rw [Failure.run_bind, run_record, hreg]
    cases hrecord : s.registry.record id phase version with
    | ok registry => exact .recorded hrun hreg hrecord rfl
    | error e =>
      obtain ⟨existing, hexisting, rfl⟩ := Registry.record_eq_error_iff.1 hrecord
      exact .taken hrun hreg hexisting

/-- A version that is decided is there in the end, if its place was free. -/
theorem Turn.get?_of_free {α : Type} {decision : Resolve String} {id : ModuleId} {phase : Phase}
    {next : String → Resolve α} {added : String → Phase → ModuleId → String → Prop}
    {s : Session} {result : Except Failure α × Session} {version : String}
    (h : Turn decision id phase next s result) (hnext : ∀ v, Writes (next v) (added v))
    (hversion : (decision.run s).1 = .ok version) (hfree : s.registry.get? id phase = none) :
    result.2.registry.get? id phase = some version := by
  cases h with
  | undecided hrun => cases hversion.symm.trans (congrArg Prod.fst hrun)
  | taken _ _ hexisting => cases hfree.symm.trans hexisting
  | recorded hrun _ hrecord hresult =>
    obtain rfl : version = _ := Except.ok.inj (hversion.symm.trans (congrArg Prod.fst hrun))
    exact (hnext version).kept hresult (Registry.get?_record_self hrecord)

end Resolve

/-- The turn of a module in a phase; `first` tells whether it is the first one. -/
structure Visit where
  phase : Phase
  subject : Module
  first : Bool

namespace Resolver

open Resolve (Decides Turn)

variable {resolver : Resolver} {phase : Phase} {s : Session}

variable (resolver phase) in
/-- The version of the first module, which is announced for all. -/
def leading (first : Module) (count : Nat) : Resolve String := do
  let version ← resolver.resolveModule phase first true
  Resolve.report .info ("Using " ++ phase.name ++ " version " ++ version ++ " for all "
    ++ toString count ++ " module(s)")
  return version

theorem leading_decides (first : Module) (count : Nat) :
    Decides (resolver.leading phase first count) (resolver.Settled phase first) := by
  refine (resolver.resolveModule_decides first true).bind fun version hversion => ?_
  exact (Decides.consult _).bind fun _ _ => .pure hversion

/-- The announcement changes nothing about the version. -/
theorem run_leading (first : Module) (count : Nat) :
    ((resolver.leading phase first count).run s).1 =
      ((resolver.resolveModule phase first true).run s).1 := by
  rw [leading, Failure.run_bind]
  rcases (resolver.resolveModule phase first true).run s with ⟨_ | version, t⟩ <;> rfl

/-! ### The turns of a phase -/

variable (resolver) in
/-- In its turn, a module gets a version, and it is recorded. -/
def visit (v : Visit) : Resolve Unit := do
  let version ← resolver.resolveModule v.phase v.subject v.first
  Resolve.record v.subject.id v.phase version

theorem resolveEach_cons (first : Bool) (m : Module) (rest : List Module) :
    resolver.resolveEach phase first (m :: rest) = (do
      resolver.visit ⟨phase, m, first⟩
      resolver.resolveEach phase false rest) := by
  simp only [resolveEach, visit, bind_assoc]

variable (resolver phase) in
theorem resolveEach_turn (first : Bool) (m : Module) (rest : List Module) (s : Session) :
    Turn (resolver.resolveModule phase m first) m.id phase
      (fun _ => resolver.resolveEach phase false rest) s
      ((resolver.resolveEach phase first (m :: rest)).run s) :=
  Resolve.turn (resolver.resolveModule_decides m first) _ _ _ s

variable (resolver phase) in
theorem propagate_turn (version : String) (m : Module) (rest : List Module) (s : Session) :
    Turn (pure (resolver.propagated phase version m)) m.id phase
      (fun _ => resolver.propagate phase version rest) s
      ((resolver.propagate phase version (m :: rest)).run s) := by
  rw [propagate, ← pure_bind (resolver.propagated phase version m)
    fun v => Resolve.record m.id phase v >>= fun _ => resolver.propagate phase version rest]
  exact Resolve.turn (Decides.pure (P := fun _ => True) trivial) _ _ _ s

variable (resolver phase) in
theorem resolve_turn_of_auto (hauto : resolver.config.autoVersionSubmodules = true)
    (leader : Module) (rest : List Module) (s : Session) :
    Turn (resolver.leading phase leader (rest.length + 1)) leader.id phase
      (fun version => resolver.propagate phase version rest) s
      ((resolver.resolve phase (leader :: rest)).run s) := by
  have hresolve : resolver.resolve phase (leader :: rest) = (do
      let version ← resolver.leading phase leader (rest.length + 1)
      Resolve.record leader.id phase version
      resolver.propagate phase version rest) := by
    rw [resolve, if_pos hauto, leading]
    simp only [bind_assoc, pure_bind, List.length_cons]
  rw [hresolve]
  exact Resolve.turn (leading_decides leader _) _ _ _ s

theorem resolve_of_not_auto (hauto : ¬resolver.config.autoVersionSubmodules = true)
    (reactor : List Module) :
    resolver.resolve phase reactor = resolver.resolveEach phase true reactor := by
  cases reactor with
  | nil => rfl
  | cons leader rest => rw [resolve, if_neg hauto]

/-! ### Phases that succeed -/

variable (resolver phase) in
/-- In some session, with the versions of the other phases as they are in a registry, the version of
    a module is decided so. -/
def DecidedFrom (registry : Registry) (m : Module) (version : String) : Prop :=
  ∃ first t t', (∀ id place, place ≠ phase → t.registry.get? id place = registry.get? id place) ∧
    (resolver.resolveModule phase m first).run t = (.ok version, t')

/-- What is recorded in the phase makes no difference. -/
theorem DecidedFrom.of_record {before after : Registry} {id : ModuleId} {m : Module}
    {recorded version : String} (h : before.record id phase recorded = .ok after)
    (hm : resolver.DecidedFrom phase after m version) :
    resolver.DecidedFrom phase before m version := by
  obtain ⟨first, t, t', hsame, hrun⟩ := hm
  refine ⟨first, t, t', fun id' place hplace => (hsame id' place hplace).trans ?_, hrun⟩
  exact Registry.get?_record_of_ne h fun he => hplace he.1

theorem DecidedFrom.settled {registry : Registry} {m : Module} {version : String}
    (h : resolver.DecidedFrom phase registry m version) : resolver.Settled phase m version := by
  obtain ⟨first, t, t', -, hrun⟩ := h
  exact (resolver.resolveModule_decides m first t).2 version (congrArg Prod.fst hrun)

/-- Each module has got what was decided for it. -/
theorem resolveEach_decided {first : Bool} {modules : List Module} {s' : Session}
    (h : (resolver.resolveEach phase first modules).run s = (.ok (), s')) :
    ∀ m ∈ modules, ∃ version, resolver.DecidedFrom phase s.registry m version ∧
      s'.registry.get? m.id phase = some version := by
  induction modules generalizing first s with
  | nil => exact nofun
  | cons m rest ih =>
    have hturn := resolver.resolveEach_turn phase first m rest s
    rw [h] at hturn
    cases hturn with
    | @recorded version t registry _ hrun hreg hrecord hnext =>
      intro m' hm'
      rcases List.mem_cons.1 hm' with rfl | hm'
      · -- What is recorded in the first turn is still there after the other ones.
        refine ⟨version, ⟨first, s, t, fun _ _ _ => rfl, hrun⟩, ?_⟩
        have hthere := Registry.get?_record_self hrecord
        exact (resolver.resolveEach_writes false rest).kept hnext hthere
      · obtain ⟨version', hdecided, hnew⟩ := ih hnext m' hm'
        exact ⟨version', hdecided.of_record hrecord, hnew⟩

/-- Each module has got what is propagated to it. -/
theorem get?_propagate {version : String} {modules : List Module} {s' : Session}
    (h : (resolver.propagate phase version modules).run s = (.ok (), s')) :
    ∀ m ∈ modules, s'.registry.get? m.id phase = some (resolver.propagated phase version m) := by
  induction modules generalizing s with
  | nil => exact nofun
  | cons m rest ih =>
    have hturn := resolver.propagate_turn phase version m rest s
    rw [h] at hturn
    cases hturn with
    | @recorded version' t registry _ hrun hreg hrecord hnext =>
      cases hrun
      intro m' hm'
      rcases List.mem_cons.1 hm' with rfl | hm'
      · have hthere := Registry.get?_record_self hrecord
        exact (resolver.propagate_writes version rest).kept hnext hthere
      · exact ih hnext m' hm'

/-- Each module has got what is propagated to it of what was decided for the first one. -/
theorem resolve_decided_of_auto (hauto : resolver.config.autoVersionSubmodules = true)
    {leader : Module} {rest : List Module} {s' : Session}
    (h : (resolver.resolve phase (leader :: rest)).run s = (.ok (), s')) :
    ∃ version, resolver.DecidedFrom phase s.registry leader version ∧
      ∀ m ∈ leader :: rest,
        s'.registry.get? m.id phase = some (resolver.propagated phase version m) := by
  have hturn := resolver.resolve_turn_of_auto phase hauto leader rest s
  rw [h] at hturn
  cases hturn with
  | @recorded version t registry _ hrun hreg hrecord hnext =>
    have hversion : ((resolver.resolveModule phase leader true).run s).1 = .ok version :=
      (run_leading leader _).symm.trans (congrArg Prod.fst hrun)
    have hdecided : resolver.DecidedFrom phase s.registry leader version :=
      ⟨true, s, _, fun _ _ _ => rfl, Prod.ext hversion rfl⟩
    refine ⟨version, hdecided, fun m hm => ?_⟩
    rcases List.mem_cons.1 hm with rfl | hm
    · rw [resolver.propagated_of_settled hdecided.settled]
      exact (resolver.propagate_writes version rest).kept hnext (Registry.get?_record_self hrecord)
    · exact get?_propagate hnext m hm

variable (resolver) in
/-- The module whose turn decides about a module: the first one if its version is given to all, and
    otherwise the module itself. -/
def decider (reactor : List Module) (m : Module) : Module :=
  if resolver.config.autoVersionSubmodules then reactor.headD m else m

theorem decider_of_not_auto (hauto : ¬resolver.config.autoVersionSubmodules = true)
    (reactor : List Module) (m : Module) : resolver.decider reactor m = m :=
  if_neg hauto

/-- Its own turn decides about the first module in any case. -/
@[simp] theorem decider_leader (leader : Module) (rest : List Module) :
    resolver.decider (leader :: rest) leader = leader :=
  ite_self leader

theorem decider_mem {reactor : List Module} {m : Module} (hm : m ∈ reactor) :
    resolver.decider reactor m ∈ reactor := by
  rw [decider]
  split
  · cases reactor with
    | nil => cases hm
    | cons leader rest => exact List.mem_cons_self
  · exact hm

/-- Each module has got what was decided in the turn that decides about it, as that is propagated
    to it. -/
theorem resolve_decided {reactor : List Module} {s' : Session}
    (h : (resolver.resolve phase reactor).run s = (.ok (), s')) {m : Module} (hm : m ∈ reactor) :
    ∃ version, resolver.DecidedFrom phase s.registry (resolver.decider reactor m) version ∧
      s'.registry.get? (resolver.decider reactor m).id phase = some version ∧
      s'.registry.get? m.id phase = some (resolver.propagated phase version m) := by
  by_cases hauto : resolver.config.autoVersionSubmodules = true
  · cases reactor with
    | nil => cases hm
    | cons leader rest =>
      obtain ⟨version, hdecided, hall⟩ := resolve_decided_of_auto hauto h
      have hleader := hall leader List.mem_cons_self
      rw [resolver.propagated_of_settled hdecided.settled] at hleader
      rw [decider, if_pos hauto, List.headD_cons]
      exact ⟨version, hdecided, hleader, hall m hm⟩
  · -- A module that is resolved for itself gets just what was decided, also if it is left alone.
    rw [resolve_of_not_auto hauto] at h
    obtain ⟨version, hdecided, hrecorded⟩ := resolveEach_decided h m hm
    rw [decider_of_not_auto hauto]
    refine ⟨version, hdecided, hrecorded, ?_⟩
    rw [resolver.propagated_of_settled hdecided.settled]
    exact hrecorded

end Resolver

end Versioning
