import Versioning.Proofs.Resolution.Acceptance

/-!
# Conversations

When a proposal is put to an operator with prepared replies, each reply stands for an answer: a
blank one for the proposal, and any other one for itself without the blanks around it. In the
phases that expect the marker the first answer that carries it is taken. Those before it are
refused with a warning, after which the question is asked once more; so with no such answer the
replies run out. In a release the first answer decides (`Resolver.first_acceptable_answer`).
-/

namespace Versioning

/-- The answer that a reply to a question stands for. -/
def Question.answer (q : Question) (reply : String) : String :=
  if Text.isBlank reply then q.default else Text.trim reply

theorem answerOrDefault_eq_answer (q : Question) (reply : String) :
    answerOrDefault reply q.default = q.answer reply := by
  by_cases hblank : Text.isBlank reply = true
  · rw [Question.answer, if_pos hblank, answerOrDefault_of_isBlank hblank]
  · have hsome : Text.trimList reply.toList ≠ [] :=
      fun hnil => hblank (List.all_eq_true.2 (Text.trimList_eq_nil_iff.1 hnil))
    rw [Question.answer, if_neg hblank, answerOrDefault]
    split
    · next hnil => exact absurd hnil hsome
    · rfl

/-- What is said about an answer that is refused. -/
def refusal (answer : String) : Message :=
  ⟨.warn, answer ++ " is not a snapshot version, asking again"⟩

/-- The session after a question was asked some times and some answers were refused, with the
    replies that are left. -/
def Session.conversed (s : Session) (q : Question) (times : Nat) (refused left : List String) :
    Session :=
  { s with
    asked := List.replicate times q ++ s.asked
    operator := .scripted left
    journal := { s.journal with
      messages := (refused.map refusal).reverse ++ s.journal.messages } }

/-- A conversation may go on. -/
theorem Session.conversed_conversed (s : Session) (q : Question) (n k : Nat)
    (refused refused' left left' : List String) :
    (s.conversed q n refused left).conversed q k refused' left' =
      s.conversed q (k + n) (refused ++ refused') left' := by
  simp only [conversed, List.replicate_add, List.map_append, List.reverse_append,
    List.append_assoc]

theorem Session.conversed_zero {s : Session} {left : List String} (h : s.operator = .scripted left)
    (q : Question) : s.conversed q 0 [] left = s := by
  rw [conversed, ← h]
  rfl

namespace Resolver

variable {resolver : Resolver} {phase : Phase} {m : Module} {q : Question} {s t : Session}

/-! ### One reply -/

variable (phase q s) in
/-- Without a reply the conversation fails. -/
theorem run_converse_nil (h : s.operator = .scripted []) :
    (converse phase q (.scripted [])).run s =
      (.error (.error (.prompt ⟨true, "no scripted answer left for: " ++ q.text⟩)),
        s.conversed q 1 [] []) := by
  have hsame : s.conversed q 1 [] [] = { s with asked := q :: s.asked } := by
    rw [Session.conversed, ← h]
    rfl
  rw [hsame]
  rfl

/-- A reply ends the conversation, unless the marker is missing in the answer. -/
theorem run_converse_cons (reply : String) (rest : List String) (s : Session) :
    (converse phase q (.scripted (reply :: rest))).run s =
      if isSnapshot (q.answer reply) = phase.expectsSnapshot then
        (.ok (q.answer reply), s.conversed q 1 [] rest)
      else if phase.expectsSnapshot then
        (converse phase q (.scripted rest)).run (s.conversed q 1 [q.answer reply] rest)
      else
        (.error (.error (.invalidVersion (q.answer reply) false)), s.conversed q 1 [] rest) := by
  rw [Operator.scripted, Operator.ofReplies, converse]
  dsimp only
  rw [answerOrDefault_eq_answer]
  split
  · rfl
  · split <;> rfl

/-! ### All replies -/

/-- The replies whose answers are refused leave no other trace than the question and the warning for
    each of them. -/
theorem run_converse_append (hsnapshot : phase.expectsSnapshot = true)
    {before : List String} (rest : List String)
    (hrefused : ∀ reply ∈ before, isSnapshot (q.answer reply) = false)
    (hs : s.operator = .scripted (before ++ rest)) :
    (converse phase q (.scripted (before ++ rest))).run s =
      (converse phase q (.scripted rest)).run
        (s.conversed q before.length (before.map q.answer) rest) := by
  induction before generalizing s with
  | nil =>
    rw [List.nil_append] at hs
    rw [List.nil_append, List.length_nil, List.map_nil, Session.conversed_zero hs]
  | cons reply before ih =>
    have hfirst := hrefused reply List.mem_cons_self
    have hlater := ih (s := s.conversed q 1 [q.answer reply] (before ++ rest))
      (fun reply' hmem => hrefused reply' (List.mem_cons_of_mem _ hmem)) rfl
    rw [List.cons_append, run_converse_cons, if_neg (by simp [hfirst, hsnapshot]),
      if_pos hsnapshot, hlater, Session.conversed_conversed]
    rfl

/-- The first answer with the marker is taken. -/
theorem run_converse_first (hsnapshot : phase.expectsSnapshot = true) {before after : List String}
    {reply : String} (hrefused : ∀ earlier ∈ before, isSnapshot (q.answer earlier) = false)
    (haccepted : isSnapshot (q.answer reply) = true)
    (hs : s.operator = .scripted (before ++ reply :: after)) :
    (converse phase q (.scripted (before ++ reply :: after))).run s =
      (.ok (q.answer reply), s.conversed q (before.length + 1) (before.map q.answer) after) := by
  rw [run_converse_append hsnapshot _ hrefused hs, run_converse_cons,
    if_pos (haccepted.trans hsnapshot.symm), Session.conversed_conversed, List.append_nil,
    Nat.add_comm]

/-- If there is none, the replies run out. -/
theorem run_converse_exhausted (hsnapshot : phase.expectsSnapshot = true) {replies : List String}
    (hrefused : ∀ reply ∈ replies, isSnapshot (q.answer reply) = false)
    (hs : s.operator = .scripted replies) :
    (converse phase q (.scripted replies)).run s =
      (.error (.error (.prompt ⟨true, "no scripted answer left for: " ++ q.text⟩)),
        s.conversed q (replies.length + 1) (replies.map q.answer) []) := by
  rw [← List.append_nil replies] at hs
  have hall := run_converse_append hsnapshot [] hrefused hs
  rw [List.append_nil] at hall
  rw [hall, run_converse_nil _ _ _ rfl, Session.conversed_conversed, List.append_nil, Nat.add_comm]

/-- In a release there is only the first answer. -/
theorem run_converse_release (reply : String) (rest : List String) (s : Session) :
    (converse .release q (.scripted (reply :: rest))).run s =
      (if isSnapshot (q.answer reply) then
        .error (.error (.invalidVersion (q.answer reply) false))
      else .ok (q.answer reply), s.conversed q 1 [] rest) := by
  rw [run_converse_cons]
  cases isSnapshot (q.answer reply) <;> rfl

/-- A proposal that comes up is put to the operator. -/
theorem run_resolveModule_of_suggest {first : Bool} {suggestion : String}
    (hinteractive : resolver.config.interactive = true)
    (hchanges : ¬resolver.keepsCurrent phase m.version = true)
    (hfree : resolver.fixedVersion? phase m first = none)
    (hsuggest : (resolver.suggest phase m first).run s = (.ok suggestion, t)) :
    (resolver.resolveModule phase m first).run s =
      (Resolve.mapError (.inModule m.id.text phase) (converse phase
        ⟨phase.question m.name m.id.text, suggestion⟩ t.operator)).run t := by
  rw [resolveModule, nextVersion, if_neg hchanges, hfree]
  dsimp only
  rw [Resolve.run_mapError, Resolve.run_mapError, Failure.run_bind, hsuggest]
  dsimp only
  rw [if_pos hinteractive]
  rfl

/-- In an interactive run, the version of a module with a proposal is the first answer that carries
    the marker, if the phase expects one; each of those before it is refused once. With no such
    answer, or none at all, the prompt fails. In a release there is one question, and one answer.
    The proposal is made before all of this, and no other one is asked for afterwards. -/
theorem first_acceptable_answer {first : Bool} {suggestion : String} {replies : List String}
    (hinteractive : resolver.config.interactive = true)
    (hchanges : ¬resolver.keepsCurrent phase m.version = true)
    (hfree : resolver.fixedVersion? phase m first = none)
    (hreplies : s.operator = .scripted replies)
    (hsuggest : (resolver.suggest phase m first).run s = (.ok suggestion, t)) :
    let q : Question := ⟨phase.question m.name m.id.text, suggestion⟩
    let run := (resolver.resolveModule phase m first).run s
    let exhausted := ReleaseError.inModule m.id.text phase
      (.prompt ⟨true, "no scripted answer left for: " ++ q.text⟩)
    t.asked = s.asked ∧
    (phase.expectsSnapshot = true →
      (∀ before reply after, replies = before ++ reply :: after →
        (∀ earlier ∈ before, isSnapshot (q.answer earlier) = false) →
        isSnapshot (q.answer reply) = true →
          run = (.ok (q.answer reply),
            t.conversed q (before.length + 1) (before.map q.answer) after)) ∧
      ((∀ reply ∈ replies, isSnapshot (q.answer reply) = false) →
        run = (.error (.error exhausted),
          t.conversed q (replies.length + 1) (replies.map q.answer) []))) ∧
    (phase = .release →
      (replies = [] → run = (.error (.error exhausted), t.conversed q 1 [] [])) ∧
      ∀ reply rest, replies = reply :: rest →
        run = (if isSnapshot (q.answer reply) then
            .error (.error (.inModule m.id.text phase (.invalidVersion (q.answer reply) false)))
          else .ok (q.answer reply), t.conversed q 1 [] rest)) := by
  intro q run exhausted
  have hunattended := resolver.suggest_unattended phase m first
  have hasked := hunattended.asked_eq s
  have hoperator := hunattended.operator_eq s
  rw [hsuggest] at hasked hoperator
  have hleft : t.operator = .scripted replies := hoperator.trans hreplies
  have hrun : run = _ := run_resolveModule_of_suggest hinteractive hchanges hfree hsuggest
  rw [hleft, Resolve.run_mapError] at hrun
  refine ⟨hasked, fun hsnapshot => ⟨?_, fun hnone => ?_⟩, ?_⟩
  · rintro before reply after rfl hbefore hreply
    rw [hrun, run_converse_first hsnapshot hbefore hreply hleft]
    rfl
  · rw [hrun, run_converse_exhausted hsnapshot hnone hleft]
    rfl
  · rintro rfl
    refine ⟨?_, ?_⟩
    · rintro rfl
      rw [hrun, run_converse_nil _ _ _ hleft]
      rfl
    · rintro reply rest rfl
      rw [hrun, run_converse_release]
      dsimp only
      split <;> rfl

/-- A version without the marker is refused, the blank reply after it stands for the proposal, and
    the last reply is left for another question. -/
theorem first_acceptable_answer_blank :
    let resolver : Resolver := ⟨{ }, .builtin, none⟩
    let m : Module := .ofId ⟨"g", "app"⟩ "1.0-SNAPSHOT"
    let s : Session := .start (.scripted [" 2.0 ", "\t", "9"])
    let q : Question := ⟨Phase.development.question "app" "g:app", "1.1-SNAPSHOT"⟩
    let run := (resolver.resolveModule .development m true).run s
    resolver.config.interactive = true ∧
      ¬resolver.keepsCurrent .development m.version = true ∧
      resolver.fixedVersion? .development m true = none ∧
      ((resolver.suggest .development m true).run s).1 = .ok "1.1-SNAPSHOT" ∧
      run.1 = .ok "1.1-SNAPSHOT" ∧ run.2.operator = .scripted ["9"] ∧ run.2.asked = [q, q] ∧
      run.2.journal.messages.head? = some (refusal "2.0") := by
  intro resolver m s q run
  have hsuggest : ((resolver.suggest .development m true).run s).1 = .ok "1.1-SNAPSHOT" := by
    decide +kernel
  obtain ⟨hasked, hsnapshots, -⟩ :=
    first_acceptable_answer rfl (by decide) rfl rfl (Prod.ext hsuggest rfl)
  have hfirst : q.answer " 2.0 " = "2.0" := by decide +kernel
  have hsecond : q.answer "\t" = "1.1-SNAPSHOT" := by decide +kernel
  have hrun : run = _ :=
    (hsnapshots rfl).1 [" 2.0 "] "\t" ["9"] rfl (by decide +kernel) (by decide +kernel)
  rw [hrun]
  exact ⟨rfl, by decide, rfl, hsuggest, congrArg _ hsecond, rfl, congrArg ([q, q] ++ ·) hasked,
    congrArg (fun answer => some (refusal answer)) hfirst⟩

end Resolver

end Versioning
