import Mathlib.Logic.Relation
import Versioning.Proofs.Pattern.Exploration

/-!
# Programs do what their patterns say

A pattern *leads* from one spot of a text to others (`Node.Leads`): to those to which a part of the
text that it matches extends, with the ends of the groups noted. A sequence composes the relations
of its parts, and a repetition is the closure of the relation of its body.

The program of a pattern follows this relation. A thread at the first instruction of the code
of a pattern accepts exactly if a thread accepts that goes on behind the code, at a spot to which
the pattern leads (`accepts_code_of_leads`, `exists_leads_of_accepts`). So a search gives the
leftmost match that there is (`Pattern.search_cases`).
-/

namespace Versioning.Pattern

/-- What a pattern may change of a thread: the position, and the positions noted. -/
structure Spot where
  position : Nat
  marks : List (Nat × Nat)

/-- The thread at a spot that is about to carry out the instruction at an address. -/
def Spot.thread (s : Spot) (address origin : Nat) : Thread :=
  ⟨address, s.position, origin, s.marks⟩

/-- Notes the position of a spot under a number. -/
def Spot.note (s : Spot) (slot : Nat) : Spot :=
  ⟨s.position, (slot, s.position) :: s.marks⟩

/-- The spots to which a pattern leads from a spot of a text. -/
def Node.Leads (text : Array Char) : Node → Spot → Spot → Prop
  | .empty => Eq
  | .one set => fun s s' => ∃ c, text[s.position]? = some c ∧ set.contains c = true ∧
      s' = ⟨s.position + 1, s.marks⟩
  | .look condition => fun s s' =>
      condition.holds (charBefore text s.position) text[s.position]? = true ∧ s' = s
  | .seq a b => Relation.Comp (a.Leads text) (b.Leads text)
  | .alt a b => fun s s' => a.Leads text s s' ∨ b.Leads text s s'
  | .capture n a => fun s s' => ∃ inner, a.Leads text (s.note (2 * n)) inner ∧
      s' = inner.note (2 * n + 1)
  | .optional _ a => Relation.ReflGen (a.Leads text)
  | .star _ a => Relation.ReflTransGen (a.Leads text)
  | .plus _ a => Relation.TransGen (a.Leads text)

variable {program : Array Instruction} {text : Array Char}

/-! ### Instructions -/

theorem mem_follow_one {set : CharSet} {next address origin : Nat} {s : Spot} {t' : Thread} :
    t' ∈ (Instruction.one set next).follow text (s.thread address origin) ↔
      ∃ c, text[s.position]? = some c ∧ set.contains c = true ∧
        t' = Spot.thread ⟨s.position + 1, s.marks⟩ next origin := by
  simp only [Instruction.follow, Spot.thread]
  cases text[s.position]? with
  | none => simp
  | some c => by_cases hset : set.contains c <;> simp [hset]

theorem mem_follow_look {condition : Look} {next address origin : Nat} {s : Spot} {t' : Thread} :
    t' ∈ (Instruction.look condition next).follow text (s.thread address origin) ↔
      condition.holds (charBefore text s.position) text[s.position]? = true ∧
        t' = s.thread next origin := by
  by_cases hholds : condition.holds (charBefore text s.position) text[s.position]? = true <;>
    simp [Instruction.follow, Spot.thread, hholds]

/-- A choice goes on at its two addresses. -/
theorem mem_follow_choice {greedy : Bool} {again leave address origin : Nat} {s : Spot}
    {t' : Thread} :
    t' ∈ (Instruction.choice greedy again leave).follow text (s.thread address origin) ↔
      t' = s.thread again origin ∨ t' = s.thread leave origin := by
  cases greedy <;> simp [Instruction.choice, Instruction.follow, Spot.thread, or_comm]

theorem choice_ne_accept {greedy : Bool} {again leave : Nat} :
    Instruction.choice greedy again leave ≠ .accept := by
  cases greedy <;> simp [Instruction.choice]

/-- A thread that is not at the end carries out the instruction at its address. -/
theorem accepts_iff {instruction : Instruction} {t last : Thread} {steps : Nat}
    (hget : program[t.address]? = some instruction) (hother : instruction ≠ .accept) :
    t.Accepts program text steps last ↔
      ∃ fewer, steps = fewer + 1 ∧ ∃ t' ∈ instruction.follow text t,
        t'.Accepts program text fewer last := by
  constructor
  · intro h
    cases h with
    | accept haccept => exact absurd (Option.some.inj (hget.symm.trans haccept)) hother
    | step hget' hfollow h =>
      obtain rfl := Option.some.inj (hget.symm.trans hget')
      exact ⟨_, rfl, _, hfollow, h⟩
  · rintro ⟨fewer, rfl, t', hfollow, h⟩
    exact .step hget hfollow h

/-! ### Code in a program -/

/-- The instructions of a program from an address on begin with the given ones. -/
def HasCode (program : Array Instruction) : (start : Nat) → List Instruction → Prop
  | _, [] => True
  | start, instruction :: code =>
    program[start]? = some instruction ∧ HasCode program (start + 1) code

@[simp] theorem hasCode_cons {start : Nat} {instruction : Instruction} {code : List Instruction} :
    HasCode program start (instruction :: code) ↔
      program[start]? = some instruction ∧ HasCode program (start + 1) code :=
  Iff.rfl

@[simp] theorem hasCode_nil {start : Nat} : HasCode program start [] ↔ True :=
  Iff.rfl

@[simp] theorem hasCode_append {start : Nat} {first second : List Instruction} :
    HasCode program start (first ++ second) ↔
      HasCode program start first ∧ HasCode program (start + first.length) second := by
  induction first generalizing start with
  | nil => simp
  | cons instruction first ih =>
    simp [ih, and_assoc, Nat.add_assoc, Nat.add_comm 1]

/-- A program has its own code, wherever it is split. -/
theorem hasCode_toArray (before code : List Instruction) :
    HasCode (before ++ code).toArray before.length code := by
  induction code generalizing before with
  | nil => trivial
  | cons instruction code ih =>
    refine ⟨by simp, ?_⟩
    simpa using ih (before ++ [instruction])

/-! ### The code of a pattern -/

theorem accepts_of_follow {instruction : Instruction} {t t' last : Thread}
    (hget : program[t.address]? = some instruction) (hfollow : t' ∈ instruction.follow text t)
    (h : ∃ steps, t'.Accepts program text steps last) :
    ∃ steps, t.Accepts program text steps last :=
  h.imp' (· + 1) fun _ => .step hget hfollow

/-- If a thread behind the code of a pattern accepts, at a spot to which the pattern leads, then so
    does the thread in front of it. -/
theorem accepts_code_of_leads {a : Node} {start next origin : Nat} {s s' : Spot} {last : Thread}
    (hcode : HasCode program start (a.code start next)) (hleads : a.Leads text s s')
    (haccepts : ∃ steps, (s'.thread next origin).Accepts program text steps last) :
    ∃ steps, (s.thread start origin).Accepts program text steps last := by
  induction a generalizing start next s s' with
  | empty =>
    cases hleads
    exact accepts_of_follow hcode.1 List.mem_cons_self haccepts
  | one set =>
    obtain ⟨c, hc, hset, rfl⟩ := hleads
    exact accepts_of_follow hcode.1 (mem_follow_one.2 ⟨c, hc, hset, rfl⟩) haccepts
  | look condition =>
    obtain ⟨hholds, rfl⟩ := hleads
    exact accepts_of_follow hcode.1 (mem_follow_look.2 ⟨hholds, rfl⟩) haccepts
  | seq a b iha ihb =>
    obtain ⟨between, ha, hb⟩ := hleads
    rw [Node.code, hasCode_append, Node.length_code] at hcode
    exact iha hcode.1 ha (ihb hcode.2 hb haccepts)
  | alt a b iha ihb =>
    rw [Node.code, hasCode_cons, hasCode_append, Node.length_code] at hcode
    obtain ⟨hfork, hcodea, hcodeb⟩ := hcode
    obtain ha | hb := hleads
    · exact accepts_of_follow hfork List.mem_cons_self (iha hcodea ha haccepts)
    · exact accepts_of_follow hfork (List.mem_cons_of_mem _ List.mem_cons_self)
        (ihb hcodeb hb haccepts)
  | capture n a ih =>
    rw [Node.code, hasCode_cons, hasCode_append, Node.length_code] at hcode
    obtain ⟨hopen, hcodea, hclose, -⟩ := hcode
    obtain ⟨inner, ha, rfl⟩ := hleads
    exact accepts_of_follow hopen List.mem_cons_self
      (ih hcodea ha (accepts_of_follow hclose List.mem_cons_self haccepts))
  | optional greedy a ih =>
    rw [Node.code, hasCode_cons] at hcode
    cases hleads with
    | refl => exact accepts_of_follow hcode.1 (mem_follow_choice.2 (.inr rfl)) haccepts
    | single ha =>
      exact accepts_of_follow hcode.1 (mem_follow_choice.2 (.inl rfl)) (ih hcode.2 ha haccepts)
  | star greedy a ih =>
    rw [Node.code, hasCode_cons] at hcode
    -- The last round leaves the repetition, each other one comes back to its choice.
    induction hleads using Relation.ReflTransGen.head_induction_on with
    | refl => exact accepts_of_follow hcode.1 (mem_follow_choice.2 (.inr rfl)) haccepts
    | head ha _ hrest =>
      exact accepts_of_follow hcode.1 (mem_follow_choice.2 (.inl rfl)) (ih hcode.2 ha hrest)
  | plus greedy a ih =>
    rw [Node.code, hasCode_append, Node.length_code] at hcode
    obtain ⟨hcodea, hchoice, -⟩ := hcode
    induction hleads using Relation.TransGen.head_induction_on with
    | single ha =>
      exact ih hcodea ha (accepts_of_follow hchoice (mem_follow_choice.2 (.inr rfl)) haccepts)
    | head ha _ hrest =>
      exact ih hcodea ha (accepts_of_follow hchoice (mem_follow_choice.2 (.inl rfl)) hrest)

/-- If the thread in front of the code of a pattern accepts, then with fewer instructions so does one
    behind the code, at a spot to which the pattern leads. -/
theorem exists_leads_of_accepts {a : Node} {start next origin steps : Nat} {s : Spot}
    {last : Thread} (hcode : HasCode program start (a.code start next))
    (haccepts : (s.thread start origin).Accepts program text steps last) :
    ∃ s' fewer, fewer < steps ∧ a.Leads text s s' ∧
      (s'.thread next origin).Accepts program text fewer last := by
  induction a generalizing start next s steps with
  | empty =>
    obtain ⟨fewer, rfl, t', ht', h⟩ := (accepts_iff hcode.1 (by simp)).1 haccepts
    obtain rfl := List.mem_singleton.1 ht'
    exact ⟨s, fewer, Nat.lt_succ_self _, rfl, h⟩
  | one set =>
    obtain ⟨fewer, rfl, t', ht', h⟩ := (accepts_iff hcode.1 (by simp)).1 haccepts
    obtain ⟨c, hc, hset, rfl⟩ := mem_follow_one.1 ht'
    exact ⟨_, fewer, Nat.lt_succ_self _, ⟨c, hc, hset, rfl⟩, h⟩
  | look condition =>
    obtain ⟨fewer, rfl, t', ht', h⟩ := (accepts_iff hcode.1 (by simp)).1 haccepts
    obtain ⟨hholds, rfl⟩ := mem_follow_look.1 ht'
    exact ⟨s, fewer, Nat.lt_succ_self _, ⟨hholds, rfl⟩, h⟩
  | seq a b iha ihb =>
    rw [Node.code, hasCode_append, Node.length_code] at hcode
    obtain ⟨between, stepsb, hltb, ha, hbetween⟩ := iha hcode.1 haccepts
    obtain ⟨s', fewer, hlt, hb, h⟩ := ihb hcode.2 hbetween
    exact ⟨s', fewer, hlt.trans hltb, ⟨between, ha, hb⟩, h⟩
  | alt a b iha ihb =>
    rw [Node.code, hasCode_cons, hasCode_append, Node.length_code] at hcode
    obtain ⟨hfork, hcodea, hcodeb⟩ := hcode
    obtain ⟨inside, rfl, t', ht', h⟩ := (accepts_iff hfork (by simp)).1 haccepts
    obtain rfl | ht' := List.mem_cons.1 ht'
    · obtain ⟨s', fewer, hlt, ha, h'⟩ := iha hcodea h
      exact ⟨s', fewer, by omega, .inl ha, h'⟩
    · obtain rfl := List.mem_singleton.1 ht'
      obtain ⟨s', fewer, hlt, hb, h'⟩ := ihb hcodeb h
      exact ⟨s', fewer, by omega, .inr hb, h'⟩
  | capture n a ih =>
    rw [Node.code, hasCode_cons, hasCode_append, Node.length_code] at hcode
    obtain ⟨hopen, hcodea, hclose, -⟩ := hcode
    obtain ⟨inside, rfl, t', ht', h⟩ := (accepts_iff hopen (by simp)).1 haccepts
    obtain rfl := List.mem_singleton.1 ht'
    obtain ⟨inner, rest, hltRest, ha, hrest⟩ := ih (s := s.note (2 * n)) hcodea h
    obtain ⟨fewer, rfl, t', ht', h'⟩ := (accepts_iff hclose (by simp)).1 hrest
    obtain rfl := List.mem_singleton.1 ht'
    exact ⟨inner.note (2 * n + 1), fewer, by omega, ⟨inner, ha, rfl⟩, h'⟩
  | optional greedy a ih =>
    rw [Node.code, hasCode_cons] at hcode
    obtain ⟨inside, rfl, t', ht', h⟩ := (accepts_iff hcode.1 choice_ne_accept).1 haccepts
    obtain rfl | rfl := mem_follow_choice.1 ht'
    · obtain ⟨s', fewer, hlt, ha, hrest⟩ := ih hcode.2 h
      exact ⟨s', fewer, by omega, .single ha, hrest⟩
    · exact ⟨s, inside, Nat.lt_succ_self _, .refl, h⟩
  | star greedy a ih =>
    rw [Node.code, hasCode_cons] at hcode
    -- Each round takes instructions, so fewer are left for the ones after it.
    induction steps using Nat.strong_induction_on generalizing s with
    | _ steps ihsteps =>
      obtain ⟨inside, rfl, t', ht', h⟩ := (accepts_iff hcode.1 choice_ne_accept).1 haccepts
      obtain rfl | rfl := mem_follow_choice.1 ht'
      · obtain ⟨between, rest, hltRest, ha, hrest⟩ := ih hcode.2 h
        obtain ⟨s', fewer, hlt, hagain, h'⟩ := ihsteps rest (by omega) hrest
        exact ⟨s', fewer, by omega, .head ha hagain, h'⟩
      · exact ⟨s, inside, Nat.lt_succ_self _, .refl, h⟩
  | plus greedy a ih =>
    rw [Node.code, hasCode_append, Node.length_code] at hcode
    obtain ⟨hcodea, hchoice, -⟩ := hcode
    induction steps using Nat.strong_induction_on generalizing s with
    | _ steps ihsteps =>
      obtain ⟨between, rest, hltRest, ha, hrest⟩ := ih hcodea haccepts
      obtain ⟨after, rfl, t', ht', h⟩ := (accepts_iff hchoice choice_ne_accept).1 hrest
      obtain rfl | rfl := mem_follow_choice.1 ht'
      · obtain ⟨s', fewer, hlt, hagain, h'⟩ := ihsteps after (by omega) h
        exact ⟨s', fewer, by omega, .head ha hagain, h'⟩
      · exact ⟨between, after, by omega, .single ha, h⟩

/-! ### Matches -/

/-- A thread at the beginning of a program accepts exactly the threads at its end, at the spots to
    which the pattern leads. -/
theorem accepts_start_iff {a : Node} {position : Nat} {last : Thread} :
    (∃ steps, (Thread.start position).Accepts a.program.toArray text steps last) ↔
      ∃ s, a.Leads text ⟨position, []⟩ s ∧ last = s.thread a.size position := by
  have hcode : HasCode a.program.toArray 0 (a.code 0 a.size ++ [.accept]) :=
    hasCode_toArray [] a.program
  rw [hasCode_append, Node.length_code, Nat.zero_add] at hcode
  constructor
  · rintro ⟨steps, h⟩
    obtain ⟨s, fewer, -, hleads, h⟩ := exists_leads_of_accepts
      (s := ⟨position, []⟩) hcode.1 h
    refine ⟨s, hleads, ?_⟩
    cases h with
    | accept => rfl
    | step hget hfollow =>
      obtain rfl := Option.some.inj (hcode.2.1.symm.trans hget)
      cases hfollow
  · rintro ⟨s, hleads, rfl⟩
    exact accepts_code_of_leads hcode.1 hleads ⟨0, .accept hcode.2.1⟩

/-- Reading a pattern gives the tree that its text describes. -/
theorem exists_ofText? {flags : Flags} {source : String} {node : Node}
    (h : Node.ofText? flags source = .ok node) :
    ∃ p, ofText? flags source = .ok p ∧ p.node = node :=
  ⟨{ source, node, program := node.program.toArray }, by rw [ofText?, h]; rfl, rfl⟩

/-- A search gives the leftmost match, or there is none. -/
theorem search_cases (p : Pattern) (text : Array Char) :
    (p.search text = none ∧
      ∀ position ≤ text.size, ∀ s, ¬ p.node.Leads text ⟨position, []⟩ s) ∨
    ∃ position ≤ text.size, ∃ s,
      (∀ earlier < position, ∀ s', ¬ p.node.Leads text ⟨earlier, []⟩ s') ∧
      p.node.Leads text ⟨position, []⟩ s ∧
      p.search text = some ⟨position, s.position, s.marks⟩ := by
  have hfails {position : Nat}
      (h : (Thread.start position).Fails p.node.program.toArray text) (s : Spot) :
      ¬ p.node.Leads text ⟨position, []⟩ s := by
    intro hleads
    obtain ⟨steps, haccepts⟩ := accepts_start_iff.2 ⟨s, hleads, rfl⟩
    exact h _ _ haccepts
  rw [search, p.program_eq]
  obtain ⟨hnone, hall⟩ | ⟨position, hle, steps, last, hearlier, haccepts, hfound⟩ :=
    explore_startingThreads p.node.program.toArray text
  · exact .inl ⟨by rw [hnone]; rfl, fun position hle => hfails (hall position hle)⟩
  · obtain ⟨s, hleads, rfl⟩ := accepts_start_iff.1 ⟨steps, haccepts⟩
    exact .inr ⟨position, hle, s, fun earlier hlt => hfails (hearlier earlier hlt), hleads,
      by rw [hfound]; rfl⟩

/-- A pattern matches a text if it leads anywhere from one of its positions. -/
theorem isMatch_iff {p : Pattern} {text : String} :
    p.isMatch text = true ↔ ∃ position ≤ text.toList.length, ∃ s,
      p.node.Leads text.toList.toArray ⟨position, []⟩ s := by
  rw [isMatch]
  obtain ⟨hnone, hfails⟩ | ⟨position, hle, s, -, hleads, hfound⟩ :=
    p.search_cases text.toList.toArray
  · simpa [hnone] using hfails
  · simp only [hfound, Option.isSome_some, true_iff]
    exact ⟨position, by simpa using hle, s, hleads⟩

end Versioning.Pattern
