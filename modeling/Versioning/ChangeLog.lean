import Versioning.Error
import Versioning.Report

/-!
# Change logs

Policies learn about the past of a project from its *change log*: the changes
that touched a directory, newest first, with the tags of each. A log is asked
for a page, the first so many changes, and can fail to answer. Nothing is assumed
about the answers: they may depend on all that was asked before.

What is asked and what is reported on the way is kept in a `Journal`, and the
computations that ask and report form the monad `Consult`.
-/

namespace Versioning

/-- An entry of a change log. -/
structure ChangeSet where
  message : String
  /-- The labels of the tags at this change. -/
  tags : List String
  deriving DecidableEq, Repr, Inhabited

/-- A question to a change log: at most `limit` changes that touched a directory. -/
structure PageRequest where
  directory : String
  limit : Nat
  deriving DecidableEq, Repr

/-- A change log, by its answers: to a request, after those made before it (the latest first). -/
structure ChangeLog where
  answer : List PageRequest → PageRequest → Except ReleaseError (List ChangeSet)

namespace ChangeLog

/-- The log that serves a fixed history by its beginnings. -/
def ofHistory (history : List ChangeSet) : ChangeLog :=
  ⟨fun _ request => .ok (history.take request.limit)⟩

/-- A log *serves* a history for a directory if it always answers with a beginning of it, as long
    as the limit allows. -/
def Serves (log : ChangeLog) (directory : String) (history : List ChangeSet) : Prop :=
  ∀ asked limit, log.answer asked ⟨directory, limit⟩ = .ok (history.take limit)

theorem serves_ofHistory (directory : String) (history : List ChangeSet) :
    (ofHistory history).Serves directory history :=
  fun _ _ => rfl

/-- The log that always fails with a message. -/
def failing (message : String) : ChangeLog :=
  ⟨fun _ _ => .error (.scm message)⟩

/-- The log that always answers the whole history, whatever the limit. -/
def unpaged (history : List ChangeSet) : ChangeLog :=
  ⟨fun _ _ => .ok history⟩

end ChangeLog

/-- What was reported and asked so far; requests are kept with the latest first, and messages
    too. -/
structure Journal where
  messages : List Message
  requests : List PageRequest
  deriving DecidableEq, Repr

/-- The journal before anything happens. -/
def Journal.empty : Journal :=
  ⟨[], []⟩

/-- A computation that may report, ask a change log, and fail. What it reported and asked stays
    in the journal even when it fails. -/
abbrev Consult := ExceptT Failure (StateM Journal)

namespace Consult

/-- Fails with an error. -/
def fail {α : Type} (e : ReleaseError) : Consult α :=
  throw (.error e)

/-- Goes on with a result, or fails with its error. -/
def ofExcept {α : Type} : Except ReleaseError α → Consult α
  | .ok a => pure a
  | .error e => fail e

/-- Goes on with a result, or fails because a number is too large. -/
def ofOption {α : Type} : Option α → Consult α
  | some a => pure a
  | none => throw .overflow

/-- Reports a message. -/
def report (severity : Severity) (text : String) : Consult Unit :=
  modify fun j => { j with messages := ⟨severity, text⟩ :: j.messages }

/-- Asks a change log. -/
def ask (log : ChangeLog) (request : PageRequest) :
    Consult (Except ReleaseError (List ChangeSet)) := do
  let j ← get
  set { j with requests := request :: j.requests }
  return log.answer j.requests request

/-- Gives the error of a computation another form; an overflow stays one. -/
def mapError {α : Type} (f : ReleaseError → ReleaseError) (x : Consult α) : Consult α :=
  ExceptT.mk do
    return (← x.run).mapError fun
      | .error e => .error (f e)
      | .overflow => .overflow

/-! ### Runs -/

variable {α : Type} (j : Journal)

@[simp] theorem run_fail (e : ReleaseError) :
    (fail e : Consult α).run j = (.error (.error e), j) := rfl

@[simp] theorem run_report (severity : Severity) (text : String) :
    (report severity text).run j =
      (.ok (), { j with messages := ⟨severity, text⟩ :: j.messages }) := rfl

@[simp] theorem run_ask (log : ChangeLog) (request : PageRequest) :
    (ask log request).run j =
      (.ok (log.answer j.requests request), { j with requests := request :: j.requests }) := rfl

@[simp] theorem run_ofExcept_ok (a : α) : (ofExcept (.ok a)).run j = (.ok a, j) := rfl

@[simp] theorem run_ofOption (a? : Option α) :
    (ofOption a?).run j = (a?.elim (.error .overflow) .ok, j) := by
  cases a? <;> rfl

/-- Only the error has another form. -/
theorem run_mapError (f : ReleaseError → ReleaseError) (x : Consult α) :
    (mapError f x).run j = match x.run j with
      | (.error (.error e), j') => (.error (.error (f e)), j')
      | (result, j') => (result, j') := by
  rcases h : x j with ⟨(e | _) | a, j'⟩ <;>
    simp only [mapError, ExceptT.run, ExceptT.mk, bind, StateT.bind, h] <;> rfl

end Consult

end Versioning
