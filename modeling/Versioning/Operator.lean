import Versioning.Error
import Versioning.Text.Blank

/-!
# The operator

In an interactive run an operator confirms every proposed version or gives another
one. What an operator does may depend on the question, and changes from question to
question; but every operator is away in the end, so each conversation is finite.

* `Operator.scripted` gives prepared answers;
* `Operator.terminal` answers by the lines of a text.
-/

namespace Versioning

/-- A question, with the answer that an empty reply stands for. -/
structure Question where
  text : String
  default : String
  deriving DecidableEq, Repr

/-- One who is asked: the reply to a question, and the behaviour after it. -/
inductive Operator where
  /-- Fails to answer now and ever after. -/
  | away (failure : Question → InputFailure)
  | present (reply : Question → Except InputFailure String) (after : Question → Operator)

/-- The answer that a reply stands for: the blanks around it do not count, and nothing stands for
    the default. -/
def answerOrDefault (reply default : String) : String :=
  match Text.trimList reply.toList with
  | [] => default
  | answer => String.ofList answer

namespace Operator

/-- Replies with prepared texts. -/
def ofReplies (failure : Question → InputFailure) : List String → Operator
  | [] => away failure
  | reply :: rest =>
    present (fun q => .ok (answerOrDefault reply q.default)) fun _ => ofReplies failure rest

/-- Gives prepared answers, and fails when there are none left. -/
def scripted (answers : List String) : Operator :=
  ofReplies (fun q => ⟨true, "no scripted answer left for: " ++ q.text⟩) answers

/-- Fails to answer with a message. -/
def failing (message : String) : Operator :=
  away fun _ => ⟨false, message⟩

/-- The lines of a text, each with its line feed; the last one may be without. -/
def linesOf : List Char → List (List Char)
  | [] => []
  | c :: rest =>
    if c = '\n' then [c] :: linesOf rest
    else
      match linesOf rest with
      | [] => [[c]]
      | line :: lines => (c :: line) :: lines

/-- Answers by the lines of an input, and fails at its end. -/
def terminal (input : String) : Operator :=
  ofReplies (fun _ => ⟨true, "input closed before an answer was given"⟩)
    ((linesOf input.toList).map String.ofList)

/-- The reply to a question, and the operator after it. -/
def respond : Operator → Question → Except InputFailure String × Operator
  | away failure, q => (.error (failure q), away failure)
  | present reply after, q => (reply q, after q)

end Operator

/-- What is shown to the operator at a terminal. -/
def Question.shown (q : Question) : String :=
  q.text ++ " [" ++ q.default ++ "]: "

end Versioning
