import Versioning.Proofs.Resolution.Acceptance
import Versioning.Proofs.Resolution.Answers

/-!
# Answers at a terminal

It makes no difference whether the answers are prepared or typed at a terminal, one on each line:
the line feed behind an answer is a blank, which does not count
(`Operator.terminal_typed`). The two operators only fail with different messages when there is no
answer left, and nothing looks at such a message. So the runs go through the same sessions, but for
the operator (`Resolve.Follows`), and fail for the same reason if they fail
(`Resolver.run_terminal_typed`).
-/

namespace Versioning

/-! ### Lines -/

namespace Text

/-- A blank at the end of a text does not count. -/
theorem trimList_append_blank {c : Char} (h : isBlankChar c = true) (text : List Char) :
    trimList (text ++ [c]) = trimList text := by
  rw [trimList, List.dropWhile_append]
  split
  · next hblank =>
    rw [trimList, List.isEmpty_iff.1 hblank]
    simp [h]
  · rw [trimList, trimEndList, trimEndList, List.reverse_append]
    simp [h]

end Text

/-- Nor does a line feed behind a reply. -/
theorem answerOrDefault_line (reply default : String) :
    answerOrDefault (String.ofList (reply.toList ++ ['\n'])) default =
      answerOrDefault reply default := by
  rw [answerOrDefault, answerOrDefault, String.toList_ofList,
    Text.trimList_append_blank (by decide)]

namespace Operator

/-- The input in which each answer is a line. -/
def typed (answers : List String) : String :=
  String.ofList (answers.flatMap fun answer => answer.toList ++ ['\n'])

/-- A line ends with its line feed. -/
theorem linesOf_line {line : List Char} (h : '\n' ∉ line) (rest : List Char) :
    linesOf (line ++ ['\n'] ++ rest) = (line ++ ['\n']) :: linesOf rest := by
  induction line with
  | nil => rfl
  | cons c line ih =>
    obtain ⟨hc, hline⟩ := not_or.1 (mt List.mem_cons.2 h)
    rw [List.cons_append, List.cons_append, linesOf, if_neg (Ne.symm hc), ih hline]

/-- The lines of the input are the answers. -/
theorem linesOf_typed {answers : List String} (h : ∀ answer ∈ answers, '\n' ∉ answer.toList) :
    linesOf (typed answers).toList = answers.map fun answer => answer.toList ++ ['\n'] := by
  rw [typed, String.toList_ofList]
  induction answers with
  | nil => rfl
  | cons answer rest ih =>
    rw [List.flatMap_cons, linesOf_line (h answer List.mem_cons_self),
      ih fun answer' hmem => h answer' (List.mem_cons_of_mem _ hmem), List.map_cons]

/-- The line feeds make no difference to the replies. -/
theorem ofReplies_lines (failure : Question → InputFailure) (replies : List String) :
    ofReplies failure (replies.map fun reply => String.ofList (reply.toList ++ ['\n'])) =
      ofReplies failure replies := by
  induction replies with
  | nil => rfl
  | cons reply rest ih =>
    rw [List.map_cons, ofReplies, ofReplies, ih]
    simp only [answerOrDefault_line]

/-- What an operator at a terminal says when the input ends. -/
def inputClosed (_ : Question) : InputFailure :=
  ⟨true, "input closed before an answer was given"⟩

/-- One who types the answers replies by them. -/
theorem terminal_typed {answers : List String} (h : ∀ answer ∈ answers, '\n' ∉ answer.toList) :
    terminal (typed answers) = ofReplies inputClosed answers := by
  rw [terminal, linesOf_typed h, List.map_map]
  exact ofReplies_lines _ answers

end Operator

/-! ### Sessions with either operator -/

/-- The kind of error behind a failure; an overflow has none. -/
def Failure.rootKind? : Failure → Option ErrorKind
  | .error e => some e.rootCause.kind
  | .overflow => none

/-- Two sessions differ in nothing but what the operator says when no reply is left. -/
def Session.Differ (failure failure' : Question → InputFailure) (s s' : Session) : Prop :=
  ∃ left, s.operator = .ofReplies failure left ∧
    s' = { s with operator := .ofReplies failure' left }

/-- In two such sessions the computation succeeds with the same value, or it fails for the same
    reason, and the sessions after it are such sessions again. -/
def Resolve.Follows {α : Type} (failure failure' : Question → InputFailure) (x : Resolve α) :
    Prop :=
  ∀ s s', s.Differ failure failure' s' → (x.run s).2.Differ failure failure' (x.run s').2 ∧
    (x.run s').1.mapError Failure.rootKind? = (x.run s).1.mapError Failure.rootKind?

variable {failure failure' : Question → InputFailure}

namespace Resolve.Follows

variable {α β : Type}

/-- A computation without an operator runs the same. -/
theorem of_unattended {x : Resolve α} (h : Unattended x) : Follows failure failure' x := by
  rintro s _ ⟨left, hoperator, rfl⟩
  have hrun := h s s.asked (.ofReplies failure' left)
  rw [hrun]
  refine ⟨⟨left, (h.operator_eq s).trans hoperator, ?_⟩, rfl⟩
  rw [← h.asked_eq s]

theorem bind {x : Resolve α} {f : α → Resolve β} (hx : Follows failure failure' x)
    (hf : ∀ a, Follows failure failure' (f a)) : Follows failure failure' (x >>= f) := by
  intro s s' h
  obtain ⟨hdiffer, hresult⟩ := hx s s' h
  rw [Failure.run_bind, Failure.run_bind]
  rcases hs : x.run s with ⟨e | a, t⟩ <;> rcases hs' : x.run s' with ⟨e' | a', t'⟩ <;>
    rw [hs, hs'] at hdiffer hresult
  · exact ⟨hdiffer, congrArg Except.error (Except.error.inj hresult)⟩
  · cases hresult
  · cases hresult
  · obtain rfl : a' = a := Except.ok.inj hresult
    exact hf a' t t' hdiffer

/-- Putting an error into a context does not change the reason. -/
theorem mapError {f : ReleaseError → ReleaseError} (hf : ∀ e, (f e).rootCause = e.rootCause)
    {x : Resolve α} (hx : Follows failure failure' x) :
    Follows failure failure' (Resolve.mapError f x) := by
  have hroot (s : Session) : ((Resolve.mapError f x).run s).1.mapError Failure.rootKind? =
      (x.run s).1.mapError Failure.rootKind? := by
    rw [run_mapError]
    rcases (x.run s).1 with (e | _) | a
    · exact congrArg (fun cause => Except.error (some cause.kind)) (hf e)
    · rfl
    · rfl
  intro s s' h
  obtain ⟨hdiffer, hresult⟩ := hx s s' h
  exact ⟨hdiffer, (hroot s').trans (hresult.trans (hroot s).symm)⟩

end Resolve.Follows

namespace Resolver

open Resolve (Follows Unattended)

variable (resolver : Resolver) {phase : Phase}

/-- A conversation ends in the same way, also if that is because no reply is left. -/
theorem converse_follows (q : Question) (left : List String) {s s' : Session}
    (h : s.Differ failure failure' s') :
    let run := (converse phase q (.ofReplies failure left)).run s
    let run' := (converse phase q (.ofReplies failure' left)).run s'
    run.2.Differ failure failure' run'.2 ∧
      run'.1.mapError Failure.rootKind? = run.1.mapError Failure.rootKind? := by
  induction left generalizing s s' with
  | nil =>
    obtain ⟨left, hoperator, rfl⟩ := h
    exact ⟨⟨left, hoperator, rfl⟩, rfl⟩
  | cons reply rest ih =>
    obtain ⟨left, hoperator, rfl⟩ := h
    rw [Operator.ofReplies, Operator.ofReplies, converse, converse]
    by_cases hmarker : isSnapshot (answerOrDefault reply q.default) = phase.expectsSnapshot
    · simp only [if_pos hmarker]
      exact ⟨⟨rest, rfl, rfl⟩, rfl⟩
    · by_cases hsnapshot : phase.expectsSnapshot = true
      · simp only [if_neg hmarker, if_pos hsnapshot]
        exact ih ⟨rest, rfl, rfl⟩
      · simp only [if_neg hmarker, if_neg hsnapshot]
        exact ⟨⟨rest, rfl, rfl⟩, rfl⟩

theorem nextVersion_follows (m : Module) (first : Bool) :
    Follows failure failure' (resolver.nextVersion phase m first) := by
  have hchecked (version : String) : Follows failure failure' (checked phase version) :=
    .of_unattended (checked_unattended version)
  have hreport (text : String) : Follows failure failure' (Resolve.report .debug text) :=
    .of_unattended (.consult _)
  have hpure (version : String) : Follows failure failure' (pure version) :=
    .of_unattended (.pure _)
  rw [nextVersion]
  split
  · exact (hreport _).bind fun _ => hpure _
  · split
    · exact (hchecked _).bind fun _ => (hreport _).bind fun _ => hpure _
    · have hsuggest := resolver.suggest_unattended phase m first
      refine (Follows.of_unattended hsuggest).bind fun suggestion => ?_
      split
      · -- The question is put to the operator that the session has by now.
        rintro s _ ⟨left, hoperator, rfl⟩
        rw [Failure.run_bind, Failure.run_bind, Resolve.run_get, Resolve.run_get]
        dsimp only
        rw [hoperator]
        exact converse_follows _ left ⟨left, hoperator, rfl⟩
      · exact hchecked suggestion

theorem resolveModule_follows (m : Module) (first : Bool) :
    Follows failure failure' (resolver.resolveModule phase m first) := by
  refine Follows.mapError (fun e => ?_) (resolver.nextVersion_follows m first)
  rfl

/-! ### Runs -/

theorem executePhases_follows (reactor : List Module) (phases : List Phase) :
    Follows failure failure' (resolver.executePhases reactor phases) := by
  have hcomposes : Resolve.Composes fun x => Follows failure failure' x :=
    { pure := fun a => .of_unattended (.pure a)
      report := fun _ _ => .of_unattended (.consult _)
      record := fun id phase version => .of_unattended (.record id phase version)
      bind := .bind }
  exact executePhases_composed hcomposes fun phase _ m _ first =>
    resolver.resolveModule_follows m first

/-- When answers are typed at a terminal, each on a line of its own, a run comes to the same as when
    they are prepared: it succeeds with the same versions, or it fails for the same reason with the
    same versions so far, after the same questions; and the lines that have not been read are
    the answers that are left. -/
theorem run_terminal_typed {answers : List String}
    (hlines : ∀ answer ∈ answers, '\n' ∉ answer.toList) (reactor : List Module)
    (phases : List Phase) :
    let run (operator : Operator) := (resolver.executePhases reactor phases).run (.start operator)
    let scripted := run (.scripted answers)
    let terminal := run (.terminal (Operator.typed answers))
    let left := answers.drop scripted.2.asked.length
    terminal.1.mapError Failure.rootKind? = scripted.1.mapError Failure.rootKind? ∧
      scripted.2.operator = .scripted left ∧
      terminal.2 = { scripted.2 with operator := .terminal (Operator.typed left) } := by
  intro run scripted terminal left
  have hterminal : terminal = run (.ofReplies Operator.inputClosed answers) :=
    congrArg run (Operator.terminal_typed hlines)
  have hleft : Operator.terminal (Operator.typed left) = .ofReplies Operator.inputClosed left :=
    Operator.terminal_typed fun answer hmem => hlines answer (List.mem_of_mem_drop hmem)
  have hserved (failure : Question → InputFailure) :
      (run (.ofReplies failure answers)).2.Served failure answers :=
    resolver.executePhases_served reactor phases _ (Session.served_start failure answers)
  obtain ⟨⟨rest, -, hsame⟩, hresult⟩ := resolver.executePhases_follows reactor phases
    (.start (.scripted answers)) (.start (.ofReplies Operator.inputClosed answers))
    ⟨answers, rfl, rfl⟩
  -- As many questions were asked, so the same replies are left.
  have hrest : (run (.ofReplies Operator.inputClosed answers)).2.operator =
      .ofReplies Operator.inputClosed left := by
    rw [hserved, hsame]
  rw [hterminal, hleft, ← hrest]
  refine ⟨hresult, hserved _, ?_⟩
  rw [hsame]

/-- A version with a carriage return behind it and blank lines; the last answer is refused, and the
    input ends before there is another one. -/
theorem run_terminal_typed_to_end :
    let answers := ["2.0\r", "", " ", "3.1"]
    let resolver : Resolver := ⟨{ }, .builtin, none⟩
    let reactor : List Module :=
      [.ofId ⟨"g", "core"⟩ "1.0-SNAPSHOT", .ofId ⟨"g", "web"⟩ "1.0-SNAPSHOT"]
    let terminal := (resolver.executePhases reactor [.release, .development]).run
      (.start (.terminal (Operator.typed answers)))
    (∀ answer ∈ answers, '\n' ∉ answer.toList) ∧
      terminal.1.mapError Failure.rootKind? = .error (some .prompt) ∧
      terminal.2.registry.get? ⟨"g", "core"⟩ .development = some "2.1-SNAPSHOT" ∧
      terminal.2.asked.length = 5 ∧ terminal.2.operator = .terminal (Operator.typed []) := by
  intro answers resolver reactor terminal
  have hlines : ∀ answer ∈ answers, '\n' ∉ answer.toList := by decide
  obtain ⟨hresult, -, hsame⟩ := resolver.run_terminal_typed hlines reactor [.release, .development]
  let scripted := (resolver.executePhases reactor [.release, .development]).run
    (.start (.scripted answers))
  have hkind : scripted.1.mapError Failure.rootKind? = .error (some .prompt) := by decide +kernel
  have hversion : scripted.2.registry.get? ⟨"g", "core"⟩ .development = some "2.1-SNAPSHOT" := by
    decide +kernel
  have hasked : scripted.2.asked.length = 5 := by decide +kernel
  have hsession : terminal.2 = { scripted.2 with operator := .terminal (Operator.typed []) } := by
    rw [← show answers.drop scripted.2.asked.length = [] from by rw [hasked]; rfl]
    exact hsame
  rw [hsession]
  exact ⟨hlines, hresult.trans hkind, hversion, hasked, rfl⟩

end Resolver

end Versioning
