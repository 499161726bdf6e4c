import Versioning.Config
import Versioning.Operator
import Versioning.Registry

/-!
# Sessions

A release is resolved in a session: the registry as far as it is filled, the journal of
what was reported and asked of the change log, the inquiries made to the policy, the
operator, and the questions put to the operator. Computations in a session form the
monad `Resolve`; when one fails, the session stays as it was at that point.
-/

namespace Versioning

/-- What the policy was asked for, and what it came to. -/
structure Inquiry where
  phase : Phase
  /-- The module that a version was asked for. -/
  subject : Module
  request : PolicyRequest
  outcome : Except Failure String

/-- The state of a release that is being resolved. -/
structure Session where
  registry : Registry
  journal : Journal
  /-- The inquiries made to the policy, the latest first. -/
  inquiries : List Inquiry
  /-- The questions put to the operator, the latest first. -/
  asked : List Question
  operator : Operator

/-- A session with nothing resolved yet. -/
def Session.start (operator : Operator) : Session :=
  ⟨.empty, .empty, [], [], operator⟩

/-- A computation in a session. -/
abbrev Resolve := ExceptT Failure (StateM Session)

namespace Resolve

/-- Fails with an error. -/
def fail {α : Type} (e : ReleaseError) : Resolve α :=
  throw (.error e)

/-- Goes on with a result, or fails with its error. -/
def ofExcept {α : Type} : Except ReleaseError α → Resolve α
  | .ok a => pure a
  | .error e => fail e

/-- Runs a consultation on the journal of the session. -/
def consult {α : Type} (x : Consult α) : Resolve α :=
  ExceptT.mk fun s =>
    let (result, journal) := x.run s.journal
    (result, { s with journal })

/-- Asks the policy for the version of a module, and keeps what it came to. -/
def inquire (phase : Phase) (m : Module) (request : PolicyRequest) (x : Consult String) :
    Resolve String :=
  ExceptT.mk fun s =>
    let (outcome, journal) := x.run s.journal
    (outcome, { s with journal, inquiries := ⟨phase, m, request, outcome⟩ :: s.inquiries })

/-- Reports a message. -/
def report (severity : Severity) (text : String) : Resolve Unit :=
  consult (Consult.report severity text)

/-- Gives the error of a computation another form; an overflow stays one. -/
def mapError {α : Type} (f : ReleaseError → ReleaseError) (x : Resolve α) : Resolve α :=
  ExceptT.mk do
    return (← x.run).mapError fun
      | .error e => .error (f e)
      | .overflow => .overflow

/-- Writes a version into the registry. -/
def record (id : ModuleId) (phase : Phase) (version : String) : Resolve Unit := do
  let s ← get
  let (result, registry) := s.registry.write id phase version
  set { s with registry }
  ofExcept result

/-! ### Runs -/

variable {α : Type} (s : Session)

theorem run_mapError (f : ReleaseError → ReleaseError) (x : Resolve α) :
    (mapError f x).run s =
      ((x.run s).1.mapError fun
        | .error e => .error (f e)
        | .overflow => .overflow, (x.run s).2) := rfl

/-- Success is not affected by it. -/
theorem run_mapError_eq_ok_iff {f : ReleaseError → ReleaseError} {x : Resolve α} {s t : Session}
    {a : α} : (mapError f x).run s = (.ok a, t) ↔ x.run s = (.ok a, t) := by
  rw [run_mapError]
  rcases x.run s with ⟨_ | b, s'⟩
  · exact iff_of_false nofun nofun
  · exact .rfl

@[simp] theorem run_fail (e : ReleaseError) :
    (fail e : Resolve α).run s = (.error (.error e), s) := rfl

@[simp] theorem run_report (severity : Severity) (text : String) :
    (report severity text).run s =
      (.ok (), { s with
        journal := { s.journal with messages := ⟨severity, text⟩ :: s.journal.messages } }) := rfl

@[simp] theorem run_inquire (phase : Phase) (m : Module) (request : PolicyRequest)
    (x : Consult String) :
    (inquire phase m request x).run s = ((x.run s.journal).1, { s with
      journal := (x.run s.journal).2
      inquiries := ⟨phase, m, request, (x.run s.journal).1⟩ :: s.inquiries }) := rfl

@[simp] theorem run_ofExcept_ok (a : α) : (ofExcept (.ok a)).run s = (.ok a, s) := rfl

@[simp] theorem run_get : (get : Resolve Session).run s = (.ok s, s) := rfl

/-- A version is written if its place is free; otherwise nothing happens to the session. -/
theorem run_record (id : ModuleId) (phase : Phase) (version : String) :
    (record id phase version).run s = match s.registry.record id phase version with
      | .ok registry => (.ok (), { s with registry })
      | .error e => (.error (.error e), s) := by
  have hrun : (record id phase version).run s =
      (ofExcept (s.registry.write id phase version).1).run
        { s with registry := (s.registry.write id phase version).2 } := rfl
  rw [hrun, Registry.record]
  cases h : s.registry.get? id phase with
  | none => rw [Registry.write_of_free version h]; rfl
  | some existing => rw [Registry.write_of_taken version h]; rfl

end Resolve

end Versioning
