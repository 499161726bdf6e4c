import Versioning.Proofs.Resolution.Change
import Versioning.Proofs.Resolution.Phases

/-!
# The replies that a session takes

An operator with prepared replies, as one at a terminal is, gives one of them to each
question, in order. So it can be told from the questions which replies are left
(`Session.Served`): whatever a session does, one reply is gone for each question that was
asked in it (`Resolver.execute_served`).

The replies at a terminal are the lines of the input, which is therefore taken line by line
(`Operator.linesOf_flatten_drop`).
-/

namespace Versioning

namespace Operator

/-! ### Lines -/

/-- The lines behind the first one are those of the text behind it. -/
theorem exists_of_linesOf_eq_cons {text line : List Char} {lines : List (List Char)}
    (h : linesOf text = line :: lines) : ∃ rest, text = line ++ rest ∧ linesOf rest = lines := by
  induction text generalizing line lines with
  | nil => cases h
  | cons c text ih =>
    rw [linesOf] at h
    split at h
    · obtain ⟨rfl, rfl⟩ := List.cons.inj h
      exact ⟨text, rfl, rfl⟩
    · cases htext : linesOf text with
      | nil =>
        rw [htext] at h
        obtain ⟨rfl, rfl⟩ := List.cons.inj h
        exact ⟨text, rfl, htext⟩
      | cons line' lines' =>
        -- The first line goes on behind the character.
        rw [htext] at h
        obtain ⟨rfl, rfl⟩ := List.cons.inj h
        obtain ⟨rest, rfl, hrest⟩ := ih htext
        exact ⟨rest, rfl, hrest⟩

/-- A text is made of its lines, -/
theorem flatten_linesOf (text : List Char) : (linesOf text).flatten = text := by
  induction text with
  | nil => rfl
  | cons c text ih =>
    rw [linesOf]
    split
    · rw [List.flatten_cons, ih, List.singleton_append]
    · cases htext : linesOf text with
      | nil =>
        rw [htext] at ih
        rw [← ih]
        rfl
      | cons line lines =>
        rw [htext] at ih
        rw [← ih]
        rfl

/-- and the text that some of its last lines make has just these lines. -/
theorem linesOf_flatten_drop (n : Nat) (text : List Char) :
    linesOf ((linesOf text).drop n).flatten = (linesOf text).drop n := by
  induction n generalizing text with
  | zero => rw [List.drop_zero, flatten_linesOf]
  | succ n ih =>
    cases htext : linesOf text with
    | nil => rfl
    | cons line lines =>
      obtain ⟨rest, -, hrest⟩ := exists_of_linesOf_eq_cons htext
      rw [List.drop_succ_cons, ← hrest, ih]

end Operator

/-- The operator of the session is one with prepared replies, of which those to the questions of the
    session are gone. -/
def Session.Served (failure : Question → InputFailure) (replies : List String) (s : Session) :
    Prop :=
  s.operator = .ofReplies failure (replies.drop s.asked.length)

variable {failure : Question → InputFailure} {replies : List String}

theorem Session.served_start (failure : Question → InputFailure) (replies : List String) :
    (Session.start (.ofReplies failure replies)).Served failure replies :=
  rfl

namespace Resolve

/-- The computation takes one reply for each question that it asks. -/
abbrev Serves {α : Type} (failure : Question → InputFailure) (replies : List String)
    (x : Resolve α) : Prop :=
  Keeps (Session.Served failure replies) x

theorem consult_serves {α : Type} (x : Consult α) :
    Serves failure replies (Resolve.consult x) :=
  fun _ h => h

theorem inquire_serves (phase : Phase) (m : Module) (request : PolicyRequest)
    (x : Consult String) : Serves failure replies (Resolve.inquire phase m request x) :=
  fun _ h => h

theorem record_serves (id : ModuleId) (phase : Phase) (version : String) :
    Serves failure replies (Resolve.record id phase version) := by
  intro s h
  rw [run_record]
  split <;> exact h

end Resolve

namespace Resolver

open Resolve (Keeps Serves consult_serves inquire_serves record_serves)

variable (resolver : Resolver) {phase : Phase}

/-- However often a question is asked again, each time one reply is taken, if there is one. -/
theorem converse_served (q : Question) {rest : List String} {s : Session}
    (h : s.Served failure replies) (hrest : replies.drop s.asked.length = rest) :
    ((converse phase q (.ofReplies failure rest)).run s).2.Served failure replies := by
  induction rest generalizing s with
  | nil =>
    -- Nothing is left, and after another question nothing is left either.
    have hleft : replies.drop (s.asked.length + 1) = [] := by
      rw [← List.tail_drop, hrest, List.tail_nil]
    rw [Session.Served, hrest] at h
    show s.operator = .ofReplies failure (replies.drop (s.asked.length + 1))
    rw [hleft, h]
  | cons reply rest ih =>
    have hleft : replies.drop (s.asked.length + 1) = rest := by
      rw [← List.tail_drop, hrest, List.tail_cons]
    have hnext : Session.Served failure replies
        { s with asked := q :: s.asked, operator := .ofReplies failure rest } :=
      congrArg (Operator.ofReplies failure) hleft.symm
    rw [Operator.ofReplies, converse]
    dsimp only
    split
    · exact hnext
    · split
      · exact ih hnext hleft
      · exact hnext

theorem askPolicy_served (phase : Phase) (m : Module) (base : String) :
    Serves failure replies (resolver.askPolicy phase m base) := by
  refine (Keeps.ofExcept _).bind fun policy => (inquire_serves _ _ _ _).bind fun suggestion => ?_
  exact (consult_serves _).bind fun _ => .pure _

theorem suggest_served (phase : Phase) (m : Module) (first : Bool) :
    Serves failure replies (resolver.suggest phase m first) := by
  refine Keeps.get_bind fun s => ?_
  refine (resolver.askPolicy_served phase m _).tryCatch (fun e => ?_) s
  cases e with
  | overflow => exact .throw _
  | error e =>
    dsimp only
    split
    · exact .throw _
    · split
      · exact (consult_serves _).bind fun _ => resolver.askPolicy_served phase m _
      · exact .throw _

theorem checked_served (version : String) : Serves failure replies (checked phase version) := by
  rw [checked]
  split
  · exact .pure _
  · exact .throw _

theorem nextVersion_served (phase : Phase) (m : Module) (first : Bool) :
    Serves failure replies (resolver.nextVersion phase m first) := by
  rw [nextVersion]
  split
  · exact (consult_serves _).bind fun _ => .pure _
  · split
    · exact (checked_served _).bind fun _ => (consult_serves _).bind fun _ => .pure _
    · refine (resolver.suggest_served phase m first).bind fun suggestion => ?_
      split
      · refine Keeps.get_bind fun s h => ?_
        rw [h]
        exact converse_served _ h rfl
      · exact checked_served suggestion

/-! ### Runs -/

theorem executePhases_served (reactor : List Module) (phases : List Phase) :
    Serves failure replies (resolver.executePhases reactor phases) := by
  have hcomposes : Resolve.Composes fun x => Serves failure replies x :=
    { pure := .pure
      report := fun _ _ => consult_serves _
      record := record_serves
      bind := .bind }
  refine executePhases_composed hcomposes fun phase _ m _ first => ?_
  exact (resolver.nextVersion_served phase m first).mapError

/-- A run takes the replies in order, one for each question, as far as there are any. -/
theorem execute_served (reactor : List Module) (failure : Question → InputFailure)
    (replies : List String) :
    ((resolver.execute reactor).run (.start (.ofReplies failure replies))).2.Served failure
      replies :=
  resolver.executePhases_served reactor _ _ (Session.served_start failure replies)

end Resolver

end Versioning
