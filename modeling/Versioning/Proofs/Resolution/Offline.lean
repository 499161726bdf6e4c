import Versioning.Proofs.Policy.Start
import Versioning.Proofs.Resolution.Change
import Versioning.Proofs.Resolution.Inquiry
import Versioning.Proofs.Resolution.Phases

/-!
# Runs that need no history

Of the proposals of the built-in policies, only the release that commits announce looks at the
change log. Any other one is *blind* (`Policy.Blind`): it is the same with any log and asks nothing of
it. So a run whose proposals are all blind makes no request (`Resolver.executePhases_offline`), and it
comes to the same with any two logs: the sessions agree but for the inquiries, which keep the log they
were made with (`Resolver.executePhases_agrees`).
-/

namespace Versioning

/-! ### Blind policies -/

/-- What a policy proposes in a phase does not depend on the log, and nothing is asked of it. -/
structure Policy.Blind (policy : Policy) (phase : Phase) : Prop where
  same : ∀ (request : PolicyRequest) (log? : Option ChangeLog),
    policy.propose phase { request with log? } = policy.propose phase request
  offline : ∀ (request : PolicyRequest) (j : Journal),
    ((policy.propose phase request).run j).2.requests = j.requests

namespace Policy

theorem blind_markerOnly (phase : Phase) : markerOnly.Blind phase where
  same request log? := rfl
  offline request j := by
    rw [propose]
    split
    · simp only [markerOnly, Failure.run_bind, readVersion]
      cases Version.parse? request.version with
      | none => rfl
      | some v => cases h : v.bump? .minor <;> simp [h]
    · simp only [markerOnly, Failure.run_bind, readVersion]
      cases Version.parse? request.version <;> rfl

theorem blind_conventional {phase : Phase} (hphase : phase.expectsSnapshot = true) :
    conventional.Blind phase where
  same request log? := by
    rw [propose_of_expectsSnapshot _ hphase, propose_of_expectsSnapshot _ hphase]
    rfl
  offline request j := by
    rw [propose_of_expectsSnapshot _ hphase]
    simp only [conventional, Conventional.suggestDevelopment, Failure.run_bind, readVersion]
    cases Version.parse? request.version with
    | none => rfl
    | some v => cases h : v.bump? .minor <;> simp [h]

end Policy

/-- There are no other built-in policies. -/
theorem Policies.mem_of_builtin_get {id : String} {policy : Policy}
    (h : builtin.get id = .ok policy) : id ∈ defaultId :: conventionalIds := by
  by_contra hid
  simp only [conventionalIds, List.mem_cons, List.not_mem_nil, or_false, not_or] at hid
  obtain ⟨hdefault, hname, halias⟩ := hid
  have hnone : builtin.byId.get? id = none := by
    simp only [builtin, conventionalIds, List.foldl_cons, List.foldl_nil, register, empty]
    rw [OrderedMap.get?_insert_of_ne _ _ halias, OrderedMap.get?_insert_of_ne _ _ hname,
      OrderedMap.get?_insert_of_ne _ _ hdefault, OrderedMap.get?_empty]
  rw [get, hnone] at h
  cases h

/-- A built-in policy is blind, unless it is for a release that commits announce. -/
theorem Policies.blind_of_builtin_get {id : String} {policy : Policy}
    (h : builtin.get id = .ok policy) {phase : Phase} (hblind : id = defaultId ∨ phase ≠ .release) :
    policy.Blind phase := by
  obtain ⟨-, hget⟩ | ⟨hconventional, hget⟩ := builtin_get (mem_of_builtin_get h)
  · obtain rfl := Except.ok.inj (h.symm.trans hget)
    exact Policy.blind_markerOnly phase
  · obtain rfl := Except.ok.inj (h.symm.trans hget)
    refine Policy.blind_conventional ?_
    obtain rfl | hphase := hblind
    · exact absurd hconventional (by decide)
    · simpa [Phase.expectsSnapshot] using hphase

/-! ### Computations that make no request -/

namespace Resolve

/-- Nothing is asked of the log. -/
abbrev Offline {α : Type} (x : Resolve α) : Prop :=
  Changes (fun s t => t.journal.requests = s.journal.requests) x

namespace Offline

variable {α β : Type}

theorem pure (a : α) : Offline (Pure.pure a) :=
  fun _ => rfl

theorem throw (e : Failure) : Offline (throw e : Resolve α) :=
  fun _ => rfl

theorem report (severity : Severity) (text : String) : Offline (report severity text) :=
  fun _ => rfl

theorem record (id : ModuleId) (phase : Phase) (version : String) :
    Offline (record id phase version) := by
  intro s
  rw [run_record]
  split <;> rfl

theorem bind {x : Resolve α} {f : α → Resolve β} (hx : Offline x) (hf : ∀ a, Offline (f a)) :
    Offline (x >>= f) :=
  Changes.bind (fun _ _ _ h h' => h'.trans h) hx hf

/-- Nothing is asked behind the first computation. -/
theorem requests_bind {x : Resolve α} {f : α → Resolve β} (hf : ∀ a, Offline (f a)) (s : Session) :
    ((x >>= f).run s).2.journal.requests = (x.run s).2.journal.requests := by
  rw [Failure.run_bind]
  rcases x.run s with ⟨_ | a, t⟩
  · rfl
  · exact hf a t

theorem get : Offline (MonadState.get : Resolve Session) :=
  fun _ => rfl

theorem modify {f : Session → Session} (hf : ∀ s, (f s).journal = s.journal) :
    Offline (modify f : Resolve Unit) :=
  fun s => congrArg Journal.requests (hf s)

theorem inquire {x : Consult String} (hx : ∀ j, (x.run j).2.requests = j.requests) (phase : Phase)
    (m : Module) (request : PolicyRequest) : Offline (inquire phase m request x) :=
  fun s => hx s.journal

theorem tryCatch {x : Resolve α} {handler : Failure → Resolve α} (hx : Offline x)
    (hh : ∀ e, Offline (handler e)) : Offline (tryCatch x handler) :=
  Changes.tryCatch (fun _ _ _ h h' => h'.trans h) hx hh

theorem composes : Composes fun x => Offline x where
  pure := pure
  report := report
  record := record
  bind := bind

end Offline

end Resolve

/-! ### Computations that agree -/

/-- Two sessions are equal but for the inquiries. -/
def Session.Agrees (s s' : Session) : Prop :=
  s' = { s with inquiries := s'.inquiries }

/-- In sessions that agree, two computations come to the same, and the sessions after them agree. -/
def Resolve.Agrees {α : Type} (x x' : Resolve α) : Prop :=
  ∀ s s', s.Agrees s' → (x'.run s').1 = (x.run s).1 ∧ (x.run s).2.Agrees (x'.run s').2

namespace Resolve.Agrees

variable {α β : Type}

theorem pure (a : α) : Agrees (Pure.pure a) (Pure.pure a) :=
  fun _ _ h => ⟨rfl, h⟩

theorem throw (e : Failure) : Agrees (throw e : Resolve α) (throw e) :=
  fun _ _ h => ⟨rfl, h⟩

theorem consult (x : Consult α) : Agrees (Resolve.consult x) (Resolve.consult x) := by
  intro s s' h
  rw [h]
  exact ⟨rfl, rfl⟩

theorem inquire (phase : Phase) (m : Module) (request request' : PolicyRequest)
    (x : Consult String) :
    Agrees (Resolve.inquire phase m request x) (Resolve.inquire phase m request' x) := by
  intro s s' h
  rw [h]
  exact ⟨rfl, rfl⟩

theorem record (id : ModuleId) (phase : Phase) (version : String) :
    Agrees (Resolve.record id phase version) (Resolve.record id phase version) := by
  intro s s' h
  rw [h, run_record, run_record]
  dsimp only
  split
  · exact ⟨rfl, rfl⟩
  · exact ⟨rfl, rfl⟩

/-- A change of the session that has nothing to do with the inquiries. -/
theorem modify {f : Session → Session} (hf : ∀ s s', s.Agrees s' → (f s).Agrees (f s')) :
    Agrees (modify f : Resolve Unit) (modify f) :=
  fun s s' h => ⟨rfl, hf s s' h⟩

theorem bind {x x' : Resolve α} {f f' : α → Resolve β} (hx : Agrees x x')
    (hf : ∀ a, Agrees (f a) (f' a)) : Agrees (x >>= f) (x' >>= f') := by
  intro s s' h
  obtain ⟨hresult, hagree⟩ := hx s s' h
  rw [Failure.run_bind, Failure.run_bind]
  rcases hs : x.run s with ⟨e | a, t⟩ <;> rcases hs' : x'.run s' with ⟨e' | a', t'⟩ <;>
    rw [hs, hs'] at hagree hresult <;> cases hresult
  · exact ⟨rfl, hagree⟩
  · exact hf a t t' hagree

theorem get_bind {f f' : Session → Resolve α}
    (hf : ∀ s s', s.Agrees s' → Agrees (f s) (f' s')) : Agrees (get >>= f) (get >>= f') := by
  intro s s' h
  rw [Failure.run_bind, Failure.run_bind, run_get, run_get]
  exact hf s s' h s s' h

theorem tryCatch {x x' : Resolve α} {handler handler' : Failure → Resolve α} (hx : Agrees x x')
    (hh : ∀ e, Agrees (handler e) (handler' e)) :
    Agrees (tryCatch x handler) (tryCatch x' handler') := by
  intro s s' h
  obtain ⟨hresult, hagree⟩ := hx s s' h
  rw [Failure.run_tryCatch, Failure.run_tryCatch]
  rcases hs : x.run s with ⟨e | a, t⟩ <;> rcases hs' : x'.run s' with ⟨e' | a', t'⟩ <;>
    rw [hs, hs'] at hagree hresult <;> cases hresult
  · exact hh e t t' hagree
  · exact ⟨rfl, hagree⟩

theorem mapError {f : ReleaseError → ReleaseError} {x x' : Resolve α} (hx : Agrees x x') :
    Agrees (mapError f x) (mapError f x') := by
  intro s s' h
  obtain ⟨hresult, hagree⟩ := hx s s' h
  rw [run_mapError, run_mapError, hresult]
  exact ⟨rfl, hagree⟩

end Resolve.Agrees

namespace Resolver

open Resolve (Offline Agrees)

variable {config : Config} {policies : Policies} {phase : Phase}

theorem checked_offline (version : String) : Offline (checked phase version) := by
  rw [checked]
  split
  · exact .pure _
  · exact .throw _

theorem converse_offline (q : Question) (operator : Operator) :
    Offline (converse phase q operator) := by
  induction operator with
  | away failure =>
    refine (Offline.modify ?_).bind fun _ => .throw _
    exact fun _ => rfl
  | present reply after ih =>
    rw [converse]
    refine (Offline.modify ?_).bind fun _ => ?_
    · exact fun _ => rfl
    cases reply q with
    | error failure => exact .throw _
    | ok answer =>
      dsimp only
      split
      · exact .pure _
      · split
        · exact (Offline.report _ _).bind fun _ => ih q
        · exact .throw _

theorem checked_agrees (version : String) :
    Agrees (checked phase version) (checked phase version) := by
  rw [checked]
  split
  · exact .pure _
  · exact .throw _

theorem converse_agrees (q : Question) (operator : Operator) :
    Agrees (converse phase q operator) (converse phase q operator) := by
  induction operator with
  | away failure =>
    refine (Agrees.modify ?_).bind fun _ => .throw _
    intro s s' h
    rw [h]
    rfl
  | present reply after ih =>
    rw [converse]
    refine (Agrees.modify ?_).bind fun _ => ?_
    · intro s s' h
      rw [h]
      rfl
    cases reply q with
    | error failure => exact .throw _
    | ok answer =>
      dsimp only
      split
      · exact .pure _
      · split
        · exact (Agrees.consult _).bind fun _ => ih q
        · exact .throw _

/-! ### Turns -/

variable (config policies phase) in
/-- Whatever the policy of a run is, it is blind in a phase. -/
def BlindIn : Prop :=
  ∀ policy, policies.get config.policy = .ok policy → policy.Blind phase

/-- Whatever the policy of a run is, it asks nothing of the log in a phase. -/
def OfflineIn (resolver : Resolver) (phase : Phase) : Prop :=
  ∀ policy, resolver.policies.get resolver.config.policy = .ok policy → ∀ m base j,
    ((policy.propose phase (resolver.request m base)).run j).2.requests = j.requests

theorem BlindIn.offlineIn (hblind : BlindIn config policies phase) (log? : Option ChangeLog) :
    OfflineIn ⟨config, policies, log?⟩ phase :=
  fun policy hpolicy _ _ => (hblind policy hpolicy).offline _

section Offline

variable {resolver : Resolver} (hoffline : resolver.OfflineIn phase) (m : Module) (first : Bool)
include hoffline

theorem askPolicy_offline (base : String) : Offline (resolver.askPolicy phase m base) := by
  cases hget : resolver.policies.get resolver.config.policy with
  | error e =>
    rw [askPolicy, hget]
    exact fun _ => rfl
  | ok policy =>
    rw [askPolicy_of_known hget]
    refine (Offline.inquire (hoffline policy hget m base) _ _ _).bind fun suggestion => ?_
    exact (Offline.report _ _).bind fun _ => .pure _

theorem suggest_offline : Offline (resolver.suggest phase m first) := by
  refine Offline.get.bind fun s => ?_
  refine (askPolicy_offline hoffline m _).tryCatch fun failure => ?_
  cases failure with
  | overflow => exact .throw _
  | error e =>
    dsimp only
    split
    · exact .throw _
    · split
      · exact (Offline.report _ _).bind fun _ => askPolicy_offline hoffline m _
      · exact .throw _

end Offline

section Agrees

variable (hblind : BlindIn config policies phase) (m : Module) (first : Bool)
  (log? log?' : Option ChangeLog)
include hblind

theorem askPolicy_agrees (base : String) :
    Agrees (Resolver.askPolicy ⟨config, policies, log?⟩ phase m base)
      (Resolver.askPolicy ⟨config, policies, log?'⟩ phase m base) := by
  cases hget : policies.get config.policy with
  | error e =>
    rw [askPolicy, askPolicy, hget]
    exact fun _ _ h => ⟨rfl, h⟩
  | ok policy =>
    rw [askPolicy_of_known hget, askPolicy_of_known hget]
    have hsame : policy.propose phase (Resolver.request ⟨config, policies, log?'⟩ m base) =
        policy.propose phase (Resolver.request ⟨config, policies, log?⟩ m base) :=
      (hblind policy hget).same (Resolver.request ⟨config, policies, log?⟩ m base) log?'
    rw [hsame]
    exact (Agrees.inquire _ _ _ _ _).bind fun _ => (Agrees.consult _).bind fun _ => .pure _

theorem suggest_agrees :
    Agrees (Resolver.suggest ⟨config, policies, log?⟩ phase m first)
      (Resolver.suggest ⟨config, policies, log?'⟩ phase m first) := by
  refine .get_bind fun s s' h => ?_
  have hregistry : s'.registry = s.registry := by rw [h]
  rw [hregistry]
  refine (askPolicy_agrees hblind m log? log?' _).tryCatch fun failure => ?_
  cases failure with
  | overflow => exact .throw _
  | error e =>
    dsimp only
    split
    · exact .throw _
    · split
      · exact (Agrees.consult _).bind fun _ => askPolicy_agrees hblind m log? log?' _
      · exact .throw _

end Agrees

/-! What comes behind a proposal asks nothing of the log. -/

section Behind

variable (resolver : Resolver) (m : Module) (first : Bool)

/-- A proposal that is due is all that a turn may ask for. -/
theorem requests_nextVersion (hchanges : ¬resolver.keepsCurrent phase m.version = true)
    (hfree : resolver.fixedVersion? phase m first = none) (s : Session) :
    ((resolver.nextVersion phase m first).run s).2.journal.requests =
      ((resolver.suggest phase m first).run s).2.journal.requests := by
  rw [nextVersion, if_neg hchanges, hfree]
  refine Offline.requests_bind (fun suggestion => ?_) s
  split
  · exact Offline.get.bind fun t => converse_offline _ t.operator
  · exact checked_offline suggestion

theorem resolveModule_offline
    (hsuggest : resolver.keepsCurrent phase m.version = true ∨
      (resolver.fixedVersion? phase m first).isSome = true ∨
        Offline (resolver.suggest phase m first)) :
    Offline (resolver.resolveModule phase m first) := by
  refine .mapError fun s => ?_
  by_cases hkeeps : resolver.keepsCurrent phase m.version = true
  · rw [nextVersion, if_pos hkeeps]
    rfl
  · cases hfixed : resolver.fixedVersion? phase m first with
    | some version =>
      rw [nextVersion, if_neg hkeeps, hfixed]
      exact ((checked_offline version).bind fun _ => (Offline.report _ _).bind fun _ => .pure _) s
    | none =>
      rw [requests_nextVersion resolver m first hkeeps hfixed]
      refine (hsuggest.resolve_left hkeeps).resolve_left ?_ s
      rw [hfixed]
      exact Bool.false_ne_true

end Behind

section Run

variable (log? log?' : Option ChangeLog)

theorem resolveModule_agrees (hblind : BlindIn config policies phase) (m : Module) (first : Bool) :
    Agrees (Resolver.resolveModule ⟨config, policies, log?⟩ phase m first)
      (Resolver.resolveModule ⟨config, policies, log?'⟩ phase m first) := by
  refine .mapError ?_
  rw [nextVersion, nextVersion]
  -- Whether the version is kept or fixed has nothing to do with the log.
  have hkeeps : Resolver.keepsCurrent ⟨config, policies, log?'⟩ phase m.version =
      Resolver.keepsCurrent ⟨config, policies, log?⟩ phase m.version := rfl
  have hfixed : Resolver.fixedVersion? ⟨config, policies, log?'⟩ phase m first =
      Resolver.fixedVersion? ⟨config, policies, log?⟩ phase m first := rfl
  rw [hkeeps, hfixed]
  split
  · exact (Agrees.consult _).bind fun _ => .pure _
  · split
    · exact (checked_agrees _).bind fun _ => (Agrees.consult _).bind fun _ => .pure _
    · refine (suggest_agrees hblind m first log? log?').bind fun suggestion => ?_
      dsimp only
      split
      · refine .get_bind fun s s' h => ?_
        have hoperator : s'.operator = s.operator := by rw [h]
        rw [hoperator]
        exact converse_agrees _ s.operator
      · exact checked_agrees suggestion

theorem resolveEach_agrees (hblind : BlindIn config policies phase) (first : Bool)
    (modules : List Module) :
    Agrees (Resolver.resolveEach ⟨config, policies, log?⟩ phase first modules)
      (Resolver.resolveEach ⟨config, policies, log?'⟩ phase first modules) := by
  induction modules generalizing first with
  | nil => exact .pure ()
  | cons m rest ih =>
    refine (resolveModule_agrees log? log?' hblind m first).bind fun version => ?_
    exact (Agrees.record _ _ _).bind fun _ => ih false

theorem propagate_agrees (version : String) (modules : List Module) :
    Agrees (Resolver.propagate ⟨config, policies, log?⟩ phase version modules)
      (Resolver.propagate ⟨config, policies, log?'⟩ phase version modules) := by
  induction modules with
  | nil => exact .pure ()
  | cons m rest ih => exact (Agrees.record _ _ _).bind fun _ => ih

theorem resolve_agrees (hblind : BlindIn config policies phase) (reactor : List Module) :
    Agrees (Resolver.resolve ⟨config, policies, log?⟩ phase reactor)
      (Resolver.resolve ⟨config, policies, log?'⟩ phase reactor) := by
  cases reactor with
  | nil => exact .pure ()
  | cons leader rest =>
    rw [resolve, resolve]
    dsimp only
    split
    · refine (resolveModule_agrees log? log?' hblind leader true).bind fun version => ?_
      refine (Agrees.consult _).bind fun _ => (Agrees.record _ _ _).bind fun _ => ?_
      exact propagate_agrees log? log?' version rest
    · exact resolveEach_agrees log? log?' hblind true (leader :: rest)

variable {phases : List Phase}

/-- With any two logs, a run comes to the same if no proposal looks at them. -/
theorem executePhases_agrees (hblind : ∀ phase ∈ phases, BlindIn config policies phase)
    (reactor : List Module) :
    Agrees (Resolver.executePhases ⟨config, policies, log?⟩ reactor phases)
      (Resolver.executePhases ⟨config, policies, log?'⟩ reactor phases) := by
  induction phases with
  | nil => exact .pure ()
  | cons phase phases ih =>
    obtain ⟨hphase, hrest⟩ := List.forall_mem_cons.1 hblind
    exact (resolve_agrees log? log?' hphase reactor).bind fun _ => ih hrest

/-- If no proposal asks anything of the log, a run does not. -/
theorem executePhases_offline {resolver : Resolver}
    (hoffline : ∀ phase ∈ phases, resolver.OfflineIn phase) (reactor : List Module) :
    Offline (resolver.executePhases reactor phases) :=
  executePhases_composed Offline.composes fun phase hphase m _ first =>
    resolveModule_offline _ m first (.inr (.inr (suggest_offline (hoffline phase hphase) m first)))

end Run

end Resolver

end Versioning
