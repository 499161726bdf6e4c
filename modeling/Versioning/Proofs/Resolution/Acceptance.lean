import Mathlib.Data.List.Nodup
import Versioning.Proofs.Resolution.Inquiry

/-!
# Accepting every proposal

An operator who gives blank answers only accepts whatever is proposed. Then a run comes to the
same as a batch run (`Resolver.execute_accepted`): a proposal that passes the check of a batch
run passes as an answer, too, so that nothing is asked twice and the fallback is not needed.
Batch runs that fail are another matter, since an interactive run may go on from there.

The two runs go through the same sessions, but for the operator and what was asked
(`Session.answeredBy`). A step of the batch run that succeeds makes a number of inquiries to
the policy, and the same step of the interactive run takes as many answers
(`Resolve.AcceptedBy`).
-/

namespace Versioning

/-- The question that a proposal raises. -/
def Inquiry.question? (i : Inquiry) : Option Question :=
  match i.outcome with
  | .ok proposal => some ⟨i.phase.question i.subject.name i.subject.id.text, proposal⟩
  | .error _ => none

namespace Session

/-- The session as it is when every proposal was put to an operator with prepared answers. -/
def answeredBy (answers : List String) (s : Session) : Session :=
  { s with
    asked := s.inquiries.filterMap Inquiry.question?
    operator := .scripted (answers.drop s.inquiries.length) }

/-- The answer to the next proposal is there, if there are enough of them. -/
theorem operator_answeredBy {answers : List String} {s : Session}
    (hroom : s.inquiries.length < answers.length) :
    (s.answeredBy answers).operator = .scripted
      (answers[s.inquiries.length] :: answers.drop (s.inquiries.length + 1)) := by
  rw [answeredBy, List.drop_eq_getElem_cons hroom]

/-- Another proposal is put to the operator, and takes an answer. -/
theorem answeredBy_of_proposal {s t : Session} {i : Inquiry} {q : Question}
    (hinquired : t.inquiries = i :: s.inquiries) (hquestion : i.question? = some q)
    (answers : List String) :
    t.answeredBy answers = { t with
      asked := q :: (s.answeredBy answers).asked
      operator := .scripted (answers.drop (s.inquiries.length + 1)) } := by
  rw [answeredBy, hinquired, List.filterMap_cons_some hquestion]
  rfl

/-- Between two sessions, inquiries were made to the policy, at most so many, and all of them came
    to a proposal. -/
def Proposed (limit : Nat) (before after : Session) : Prop :=
  ∃ new, after.inquiries = new ++ before.inquiries ∧ new.length ≤ limit ∧
    ∀ i ∈ new, i.outcome.isOk = true

namespace Proposed

variable {n k : Nat} {before middle after : Session}

theorem of_eq (h : after.inquiries = before.inquiries) : Proposed n before after :=
  ⟨[], h, Nat.zero_le n, fun _ hi => absurd hi List.not_mem_nil⟩

theorem mono (h : Proposed n before after) (hle : n ≤ k) : Proposed k before after := by
  obtain ⟨new, hnew, hlimit, hok⟩ := h
  exact ⟨new, hnew, Nat.le_trans hlimit hle, hok⟩

theorem trans (h : Proposed n before middle) (h' : Proposed k middle after) :
    Proposed (n + k) before after := by
  obtain ⟨new, hnew, hlimit, hok⟩ := h
  obtain ⟨later, hlater, hlimit', hok'⟩ := h'
  refine ⟨later ++ new, ?_, ?_, fun i hi => ?_⟩
  · rw [hlater, hnew, List.append_assoc]
  · rw [List.length_append, Nat.add_comm]
    exact Nat.add_le_add hlimit hlimit'
  · exact (List.mem_append.1 hi).elim (hok' i) (hok i)

theorem length_le (h : Proposed n before after) :
    before.inquiries.length ≤ after.inquiries.length := by
  obtain ⟨new, hnew, -⟩ := h
  rw [hnew, List.length_append]
  exact Nat.le_add_left _ _

end Proposed

end Session

namespace Resolve

/-! ### Computations without an operator -/

/-- The operator plays no part in the computation: it runs the same whoever it is, and leaves him
    alone. -/
def Unattended {α : Type} (x : Resolve α) : Prop :=
  ∀ s asked operator,
    x.run { s with asked, operator } = ((x.run s).1, { (x.run s).2 with asked, operator })

namespace Unattended

variable {α β : Type}

theorem pure (a : α) : Unattended (Pure.pure a) :=
  fun _ _ _ => rfl

theorem throw (e : Failure) : Unattended (throw e : Resolve α) :=
  fun _ _ _ => rfl

theorem ofExcept (x : Except ReleaseError α) : Unattended (Resolve.ofExcept x) := by
  cases x with
  | ok a => exact pure a
  | error e => exact throw _

theorem consult (x : Consult α) : Unattended (Resolve.consult x) :=
  fun _ _ _ => rfl

theorem inquire (phase : Phase) (m : Module) (request : PolicyRequest) (x : Consult String) :
    Unattended (Resolve.inquire phase m request x) :=
  fun _ _ _ => rfl

theorem record (id : ModuleId) (phase : Phase) (version : String) :
    Unattended (Resolve.record id phase version) := by
  intro s asked operator
  simp only [run_record]
  cases s.registry.record id phase version <;> rfl

theorem bind {x : Resolve α} {f : α → Resolve β} (hx : Unattended x)
    (hf : ∀ a, Unattended (f a)) : Unattended (x >>= f) := by
  intro s asked operator
  rw [Failure.run_bind, Failure.run_bind, hx]
  rcases x.run s with ⟨_ | a, t⟩
  · rfl
  · exact hf a t asked operator

/-- What follows a look at the session may depend on the rest of it. -/
theorem get_bind {f : Session → Resolve α} (hf : ∀ s, Unattended (f s))
    (hsame : ∀ s asked operator, f { s with asked, operator } = f s) : Unattended (get >>= f) := by
  intro s asked operator
  rw [Failure.run_bind, Failure.run_bind, run_get, run_get]
  dsimp only
  rw [hsame]
  exact hf s s asked operator

theorem tryCatch {x : Resolve α} {handler : Failure → Resolve α} (hx : Unattended x)
    (hh : ∀ e, Unattended (handler e)) : Unattended (tryCatch x handler) := by
  intro s asked operator
  rw [Failure.run_tryCatch, Failure.run_tryCatch, hx]
  rcases x.run s with ⟨e | a, t⟩
  · exact hh e t asked operator
  · rfl

/-- No question is asked, -/
theorem asked_eq {x : Resolve α} (h : Unattended x) (s : Session) :
    (x.run s).2.asked = s.asked :=
  congrArg (fun result => result.2.asked) (h s s.asked s.operator)

/-- and no answer is taken. -/
theorem operator_eq {x : Resolve α} (h : Unattended x) (s : Session) :
    (x.run s).2.operator = s.operator :=
  congrArg (fun result => result.2.operator) (h s s.asked s.operator)

end Unattended

/-! ### Runs side by side -/

/-- Whenever the first computation succeeds, it has made at most so many inquiries; and the second
    one comes to the same if the operator has blank answers for them. -/
def AcceptedBy {α : Type} (limit : Nat) (batch interactive : Resolve α) : Prop :=
  ∀ ⦃s : Session⦄ ⦃a : α⦄ ⦃t : Session⦄, batch.run s = (.ok a, t) →
    s.Proposed limit t ∧ ∀ answers : List String,
      (∀ answer ∈ answers, Text.isBlank answer = true) → t.inquiries.length ≤ answers.length →
        interactive.run (s.answeredBy answers) = (.ok a, t.answeredBy answers)

namespace AcceptedBy

variable {α β : Type} {n k : Nat}

theorem mono {x y : Resolve α} (h : AcceptedBy n x y) (hle : n ≤ k) : AcceptedBy k x y := by
  intro s a t hrun
  exact (h hrun).imp_left fun hproposed => hproposed.mono hle

/-- A computation that needs neither the operator nor the policy runs the same. -/
theorem of_unattended {x : Resolve α} (h : Unattended x) (hsilent : Silent x) :
    AcceptedBy n x x := by
  intro s a t hrun
  have hsame : t.inquiries = s.inquiries := by
    rw [← hsilent s, hrun]
  refine ⟨.of_eq hsame, fun answers _ _ => ?_⟩
  have hanswered : s.answeredBy answers = { s with
      asked := (t.answeredBy answers).asked
      operator := (t.answeredBy answers).operator } := by
    rw [Session.answeredBy, Session.answeredBy, hsame]
  rw [hanswered, h, hrun]
  rfl

theorem bind {x y : Resolve α} {f g : α → Resolve β} (hx : AcceptedBy n x y)
    (hf : ∀ a, AcceptedBy k (f a) (g a)) : AcceptedBy (n + k) (x >>= f) (y >>= g) := by
  intro s b t hrun
  obtain ⟨a, s', hfirst, hnext⟩ := Failure.run_bind_eq_ok_iff.1 hrun
  obtain ⟨hproposed, haccepted⟩ := hx hfirst
  obtain ⟨hproposed', haccepted'⟩ := hf a hnext
  refine ⟨hproposed.trans hproposed', fun answers hblank hmany => ?_⟩
  -- There are answers for the first computation, since there are for both together.
  have hmany' : s'.inquiries.length ≤ answers.length := Nat.le_trans hproposed'.length_le hmany
  exact Failure.run_bind_eq_ok_iff.2
    ⟨a, _, haccepted answers hblank hmany', haccepted' answers hblank hmany⟩

theorem mapError {f : ReleaseError → ReleaseError} {x y : Resolve α} (h : AcceptedBy n x y) :
    AcceptedBy n (Resolve.mapError f x) (Resolve.mapError f y) := by
  intro s a t hrun
  obtain ⟨hproposed, haccepted⟩ := h (run_mapError_eq_ok_iff.1 hrun)
  exact ⟨hproposed, fun answers hblank hmany =>
    run_mapError_eq_ok_iff.2 (haccepted answers hblank hmany)⟩

end AcceptedBy

end Resolve

/-- A blank reply stands for the default. -/
theorem answerOrDefault_of_isBlank {reply : String} (h : Text.isBlank reply = true)
    (default : String) : answerOrDefault reply default = default := by
  have hnil : Text.trimList reply.toList = [] :=
    Text.trimList_eq_nil_iff.2 (List.all_eq_true.1 h)
  rw [answerOrDefault, hnil]

namespace Resolver

open Resolve (Silent Unattended AcceptedBy)

variable {resolver : Resolver} {phase : Phase} {m : Module}

variable (resolver) in
/-- The same resolver, in an interactive run. -/
def attended : Resolver :=
  { resolver with config := { resolver.config with interactive := true } }

/-! Nothing but the last word on a proposal depends on whether a run is interactive. -/

@[simp] theorem interactive_attended : resolver.attended.config.interactive = true := rfl

@[simp] theorem keepsCurrent_attended (current : String) :
    resolver.attended.keepsCurrent phase current = resolver.keepsCurrent phase current := rfl

@[simp] theorem fixedVersion?_attended (first : Bool) :
    resolver.attended.fixedVersion? phase m first = resolver.fixedVersion? phase m first := rfl

@[simp] theorem baseVersion_attended (first : Bool) (registry : Registry) :
    resolver.attended.baseVersion phase m first registry =
      resolver.baseVersion phase m first registry := rfl

@[simp] theorem askPolicy_attended (base : String) :
    resolver.attended.askPolicy phase m base = resolver.askPolicy phase m base := rfl

@[simp] theorem propagated_attended (version : String) :
    resolver.attended.propagated phase version m = resolver.propagated phase version m := rfl

/-! ### One proposal -/

/-- What the operator accepts is the default of the question, if it will do. -/
theorem run_converse_of_isBlank {q : Question}
    (hmarker : isSnapshot q.default = phase.expectsSnapshot) {answer : String}
    (hblank : Text.isBlank answer = true) (rest : List String) (s : Session) :
    (converse phase q (.scripted (answer :: rest))).run s =
      (.ok q.default, { s with asked := q :: s.asked, operator := .scripted rest }) := by
  rw [Operator.scripted, Operator.ofReplies, converse, answerOrDefault_of_isBlank hblank]
  dsimp only
  rw [if_pos hmarker]
  rfl

variable (resolver phase m) in
theorem askPolicy_unattended (base : String) : Unattended (resolver.askPolicy phase m base) := by
  rw [askPolicy]
  refine (Unattended.ofExcept _).bind fun policy => ?_
  refine (Unattended.inquire _ _ _ _).bind fun suggestion => ?_
  exact (Unattended.consult _).bind fun _ => .pure _

variable (resolver phase m) in
theorem suggest_unattended (first : Bool) : Unattended (resolver.suggest phase m first) := by
  refine .get_bind (fun s => ?_) fun _ _ _ => rfl
  refine (resolver.askPolicy_unattended phase m _).tryCatch fun failure => ?_
  cases failure with
  | overflow => exact .throw _
  | error e =>
    dsimp only
    split
    · exact .throw _
    · split
      · exact (Unattended.consult _).bind fun _ => resolver.askPolicy_unattended phase m _
      · exact .throw _

theorem checked_unattended (version : String) : Unattended (checked phase version) := by
  rw [checked]
  split
  · exact .pure _
  · exact .throw _

/-- A proposal that passes in a batch run is accepted by the next answer. -/
theorem nextVersion_accepted_of_proposed (hbatch : resolver.config.interactive = false)
    {first : Bool} (hchanges : ¬resolver.keepsCurrent phase m.version = true)
    (hfree : resolver.fixedVersion? phase m first = none) :
    AcceptedBy 1 (resolver.nextVersion phase m first)
      (resolver.attended.nextVersion phase m first) := by
  intro s proposal t hrun
  obtain ⟨hasked, hmarker⟩ := nextVersion_proposed hbatch hchanges hfree hrun
  have hinquired := inquiries_of_askPolicy hasked
  refine ⟨⟨[_], hinquired, Nat.le_refl 1, by simp [Except.isOk, Except.toBool]⟩, ?_⟩
  intro answers hblank hmany
  have hroom : s.inquiries.length < answers.length := by
    rwa [hinquired, List.length_cons] at hmany
  -- The policy is asked first, and does not notice that there is an operator.
  have hsuggest : (resolver.attended.suggest phase m first).run (s.answeredBy answers) =
      (.ok proposal, { t with
        asked := (s.answeredBy answers).asked
        operator := (s.answeredBy answers).operator }) := by
    refine run_suggest_of_ok ?_
    rw [baseVersion_attended, askPolicy_attended]
    have hunattended := resolver.askPolicy_unattended phase m
      (resolver.baseVersion phase m first s.registry) s (s.answeredBy answers).asked
      (s.answeredBy answers).operator
    rw [hasked] at hunattended
    exact hunattended
  rw [nextVersion, keepsCurrent_attended, if_neg hchanges, fixedVersion?_attended, hfree]
  refine Failure.run_bind_eq_ok_iff.2 ⟨proposal, _, hsuggest, ?_⟩
  -- Then the next answer is taken.
  rw [if_pos interactive_attended, Failure.run_bind, Resolve.run_get]
  dsimp only
  have hdefault :
      isSnapshot (Question.mk (phase.question m.name m.id.text) proposal).default =
        phase.expectsSnapshot := hmarker
  rw [Session.operator_answeredBy hroom,
    run_converse_of_isBlank hdefault (hblank _ (List.getElem_mem hroom)),
    Session.answeredBy_of_proposal hinquired rfl]

/-- The turn of a module takes an answer if the policy is asked, and otherwise none. -/
theorem nextVersion_accepted (hbatch : resolver.config.interactive = false) (first : Bool) :
    AcceptedBy 1 (resolver.nextVersion phase m first)
      (resolver.attended.nextVersion phase m first) := by
  by_cases hkeeps : resolver.keepsCurrent phase m.version = true
  · -- Nobody is asked about a version that the phase leaves alone,
    rw [nextVersion, nextVersion, keepsCurrent_attended, if_pos hkeeps, if_pos hkeeps]
    refine .of_unattended ((Unattended.consult _).bind fun _ => .pure _) ?_
    exact (Silent.consult _).bind fun _ => .pure _
  · cases hfixed : resolver.fixedVersion? phase m first with
    | none => exact nextVersion_accepted_of_proposed hbatch hkeeps hfixed
    | some version =>
      -- nor about one that is fixed.
      rw [nextVersion, nextVersion, keepsCurrent_attended, if_neg hkeeps, if_neg hkeeps,
        fixedVersion?_attended, hfixed]
      refine .of_unattended ((checked_unattended _).bind fun _ =>
        (Unattended.consult _).bind fun _ => .pure _) ?_
      exact (checked_silent _).bind fun _ => (Silent.consult _).bind fun _ => .pure _

/-! ### Phases -/

theorem resolveModule_accepted (hbatch : resolver.config.interactive = false) (first : Bool) :
    AcceptedBy 1 (resolver.resolveModule phase m first)
      (resolver.attended.resolveModule phase m first) :=
  (nextVersion_accepted hbatch first).mapError

theorem record_accepted (id : ModuleId) (version : String) :
    AcceptedBy 0 (Resolve.record id phase version) (Resolve.record id phase version) :=
  .of_unattended (.record id phase version) (.record id phase version)

theorem resolveEach_accepted (hbatch : resolver.config.interactive = false) (first : Bool)
    (modules : List Module) :
    AcceptedBy modules.length (resolver.resolveEach phase first modules)
      (resolver.attended.resolveEach phase first modules) := by
  induction modules generalizing first with
  | nil => exact .of_unattended (.pure ()) (.pure ())
  | cons m rest ih =>
    rw [List.length_cons, Nat.add_comm]
    refine (resolveModule_accepted hbatch first).bind fun version => ?_
    rw [← Nat.zero_add rest.length]
    exact (record_accepted m.id version).bind fun _ => ih false

/-- While a version is propagated, nobody is asked. -/
theorem propagate_accepted (version : String) (modules : List Module) :
    AcceptedBy 0 (resolver.propagate phase version modules)
      (resolver.attended.propagate phase version modules) := by
  induction modules with
  | nil => exact .of_unattended (.pure ()) (.pure ())
  | cons m rest ih =>
    rw [propagate, propagate, propagated_attended]
    exact (record_accepted m.id _).bind fun _ => ih

/-- A phase takes at most one answer for each module. -/
theorem resolve_accepted (hbatch : resolver.config.interactive = false) (reactor : List Module) :
    AcceptedBy reactor.length (resolver.resolve phase reactor)
      (resolver.attended.resolve phase reactor) := by
  by_cases hauto : resolver.config.autoVersionSubmodules = true
  · cases reactor with
    | nil => exact .of_unattended (.pure ()) (.pure ())
    | cons leader rest =>
      have hauto' : resolver.attended.config.autoVersionSubmodules = true := hauto
      rw [resolve, resolve, if_pos hauto, if_pos hauto']
      rw [List.length_cons, Nat.add_comm]
      refine (resolveModule_accepted hbatch true).bind fun version => ?_
      -- What comes after the turn of the first module asks for nothing more.
      refine AcceptedBy.mono (n := 0) ?_ (Nat.zero_le rest.length)
      refine AcceptedBy.bind (n := 0) (k := 0) ?_ fun _ =>
        (record_accepted leader.id version).bind fun _ => propagate_accepted version rest
      exact .of_unattended (.consult _) (.consult _)
  · have hauto' : ¬resolver.attended.config.autoVersionSubmodules = true := hauto
    rw [resolve_of_not_auto hauto, resolve_of_not_auto hauto']
    exact resolveEach_accepted hbatch true reactor

theorem executePhases_accepted (hbatch : resolver.config.interactive = false)
    (reactor : List Module) (phases : List Phase) :
    AcceptedBy (phases.length * reactor.length) (resolver.executePhases reactor phases)
      (resolver.attended.executePhases reactor phases) := by
  induction phases with
  | nil => exact .of_unattended (.pure ()) (.pure ())
  | cons phase phases ih =>
    have hcount : reactor.length + phases.length * reactor.length =
        (phase :: phases).length * reactor.length := by
      rw [List.length_cons, Nat.succ_mul, Nat.add_comm]
    rw [← hcount]
    exact (resolve_accepted hbatch reactor).bind fun _ => ih

/-- When a batch run succeeds, every inquiry that it makes to the policy comes to a proposal, and
    there are at most two of them for each module. If there are as many blank answers, the
    interactive run succeeds as well, with the same versions. It takes just one answer for each
    proposal, and this is the answer to the question whether to go on with it. -/
theorem execute_accepted (hbatch : resolver.config.interactive = false) {reactor : List Module}
    {operator : Operator} {s : Session}
    (h : (resolver.execute reactor).run (.start operator) = (.ok (), s)) {answers : List String}
    (hblank : ∀ answer ∈ answers, Text.isBlank answer = true)
    (hmany : 2 * reactor.length ≤ answers.length) :
    ∃ t, (resolver.attended.execute reactor).run (.start (.scripted answers)) = (.ok (), t) ∧
      t.registry = s.registry ∧ (∀ i ∈ s.inquiries, i.outcome.isOk = true) ∧
      s.inquiries.length ≤ answers.length ∧
      t.operator = .scripted (answers.drop s.inquiries.length) ∧
      t.asked = s.inquiries.filterMap Inquiry.question? := by
  -- At the start nothing was asked, so what was asked in the run is all there is.
  obtain ⟨⟨new, hnew, hlimit, hproposals⟩, haccepted⟩ := executePhases_accepted hbatch reactor _ h
  have hinquiries : s.inquiries = new := hnew.trans (List.append_nil new)
  rw [← hinquiries] at hlimit hproposals
  have henough : s.inquiries.length ≤ answers.length := Nat.le_trans hlimit hmany
  exact ⟨s.answeredBy answers, haccepted answers hblank henough, rfl, hproposals, henough, rfl, rfl⟩

/-- Two modules, of which one is released as a fixed version: there are three proposals, and one of
    four answers is left over. -/
theorem execute_accepted_with_answer_left :
    let resolver : Resolver :=
      ⟨{ interactive := false, releaseVersions := .ofList [("g:core", "2.0")] }, .builtin, none⟩
    let reactor : List Module :=
      [.ofId ⟨"g", "core"⟩ "1.0-SNAPSHOT", .ofId ⟨"g", "web"⟩ "3-SNAPSHOT"]
    let answers := ["", " ", "\t", "\n"]
    let batch := (resolver.execute reactor).run (.start (.scripted []))
    resolver.config.interactive = false ∧ batch.1 = .ok () ∧
      (∀ answer ∈ answers, Text.isBlank answer = true) ∧ 2 * reactor.length ≤ answers.length ∧
      batch.2.inquiries.length = 3 ∧
      ∃ t, (resolver.attended.execute reactor).run (.start (.scripted answers)) = (.ok (), t) ∧
        t.registry = batch.2.registry ∧ t.operator = .scripted ["\n"] := by
  intro resolver reactor answers batch
  have hok : batch.1 = .ok () := by decide +kernel
  have hblank : ∀ answer ∈ answers, Text.isBlank answer = true := by
    simp [answers, Text.isBlank, Text.isBlankChar]
  have hmany : 2 * reactor.length ≤ answers.length := Nat.le_refl 4
  have hthree : batch.2.inquiries.length = 3 := by decide +kernel
  obtain ⟨t, hrun, hregistry, -, -, hleft, -⟩ :=
    execute_accepted rfl (Prod.ext hok rfl : batch = (.ok (), batch.2)) hblank hmany
  rw [hthree] at hleft
  exact ⟨rfl, hok, hblank, hmany, hthree, t, hrun, hregistry, hleft⟩

end Resolver

end Versioning
