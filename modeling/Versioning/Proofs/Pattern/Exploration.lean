import Mathlib.Data.Finset.Card
import Versioning.Pattern

/-!
# A search finds what there is to find

A thread *accepts* if some instructions lead from it to the end of the program (`Thread.Accepts`).
A search follows every thread, but from each place of the program only once; what it gives is a
thread that is accepted, from the first one of the stack that accepts (`explore_cases`).

No thread is lost, because at any time the places visited so far are *covered*: from each of them
one comes to places that are visited as well, or that are waiting on the stack (`Covered`). A search
keeps this up (`Covered.visit`), and once nothing is waiting, no visited place accepts
(`Covered.not_accepts`). It has fuel enough because a place that is visited for the first time
pays for its two successors.
-/

namespace Versioning.Pattern

/-- Where a thread stands: the address in the program and the position in the text. -/
def Thread.place (t : Thread) : Nat × Nat :=
  (t.address, t.position)

variable (program : Array Instruction) (text : Array Char)

/-- So many instructions lead from one thread to another one, which is accepted. -/
inductive Thread.Accepts : Nat → Thread → Thread → Prop
  | accept {t : Thread} : program[t.address]? = some .accept → Accepts 0 t t
  | step {steps : Nat} {t t' last : Thread} {instruction : Instruction} :
    program[t.address]? = some instruction → t' ∈ instruction.follow text t →
      Accepts steps t' last → Accepts (steps + 1) t last

/-! ### Single instructions -/

variable {text}

/-- Where a thread goes depends on where it stands, and not on what it has noted. -/
theorem Instruction.map_place_follow (instruction : Instruction) {t t' : Thread}
    (h : t.place = t'.place) :
    (instruction.follow text t).map Thread.place =
      (instruction.follow text t').map Thread.place := by
  obtain ⟨_, position, _, _⟩ := t
  obtain ⟨_, _, _, _⟩ := t'
  cases h
  cases instruction with
  | one set next =>
    simp only [follow]
    cases text[position]? with
    | none => rfl
    | some c => by_cases hset : set.contains c <;> simp [hset, Thread.place]
  | look condition next =>
    simp only [follow]
    split <;> rfl
  | fork | mark | jump | accept => rfl

/-- There are at most two ways to go on. -/
theorem Instruction.length_follow_le (instruction : Instruction) (t : Thread) :
    (instruction.follow text t).length ≤ 2 := by
  cases instruction with
  | one set next =>
    simp only [follow]
    cases text[t.position]? with
    | none => simp
    | some c => cases h : set.contains c <;> simp [h]
  | look condition next =>
    simp only [follow]
    split <;> simp
  | fork | mark | jump | accept => simp [follow]

/-- No instruction leaves the text. -/
theorem Instruction.position_le_of_mem_follow {instruction : Instruction} {t t' : Thread}
    (ht : t.position ≤ text.size) (h : t' ∈ instruction.follow text t) :
    t'.position ≤ text.size := by
  cases instruction with
  | one set next =>
    simp only [follow] at h
    cases hc : text[t.position]? with
    | none => simp [hc] at h
    | some c =>
      have hlt : t.position < text.size := (Array.getElem?_eq_some_iff.1 hc).1
      cases hset : set.contains c <;> simp [hc, hset] at h
      subst h
      exact hlt
  | look condition next =>
    simp only [follow] at h
    split at h <;> simp at h
    simpa [h] using ht
  | fork preferred other =>
    obtain rfl | rfl : t' = { t with address := preferred } ∨ t' = { t with address := other } := by
      simpa [follow] using h
    all_goals exact ht
  | mark slot next | jump next =>
    simp only [follow, List.mem_singleton] at h
    simpa [h] using ht
  | accept => simp [follow] at h

/-! ### Visited places -/

/-- The place of a thread is in the program, and noted among the visited ones. -/
def Thread.Visited (visited : Nat) (t : Thread) : Prop :=
  t.address < program.size ∧ visited.testBit (t.position * program.size + t.address) = true

variable {program}

theorem Thread.visited_congr {visited : Nat} {t t' : Thread} (h : t.place = t'.place) :
    t.Visited program visited ↔ t'.Visited program visited := by
  simp only [place, Prod.mk.injEq] at h
  rw [Visited, Visited, h.1, h.2]

/-- Noting the place of a thread adds just this place. -/
theorem Thread.visited_insert {visited : Nat} {t t' : Thread} (ht : t.address < program.size) :
    t'.Visited program (visited ||| 1 <<< (t.position * program.size + t.address)) ↔
      t'.Visited program visited ∨ t'.place = t.place := by
  have hbit : (1 <<< (t.position * program.size + t.address)).testBit
      (t'.position * program.size + t'.address) =
        decide (t.position * program.size + t.address =
          t'.position * program.size + t'.address) := by
    rw [Nat.one_shiftLeft, Nat.testBit_two_pow]
  rw [Visited, Nat.testBit_or, hbit, Bool.or_eq_true, decide_eq_true_eq, Visited]
  constructor
  · rintro ⟨hlt, hold | hnew⟩
    · exact .inl ⟨hlt, hold⟩
    · -- The state number tells the place, since the addresses are below the size.
      have hposition : t.position = t'.position := by
        have hdiv := congrArg (· / program.size) hnew
        have hpos : 0 < program.size := by omega
        simpa [Nat.mul_comm _ program.size, Nat.mul_add_div hpos, Nat.div_eq_of_lt ht,
          Nat.div_eq_of_lt hlt] using hdiv
      rw [hposition, Nat.add_left_cancel_iff] at hnew
      exact .inr (by rw [place, place, hposition, hnew])
  · rintro (⟨hlt, hold⟩ | hplace)
    · exact ⟨hlt, .inl hold⟩
    · simp only [place, Prod.mk.injEq] at hplace
      rw [hplace.1, hplace.2]
      exact ⟨ht, .inr rfl⟩

variable (program) in
/-- The number of places that are left to visit. -/
def unvisited (text : Array Char) (visited : Nat) : Nat :=
  ((Finset.range (program.size * (text.size + 1))).filter
    fun state => visited.testBit state = false).card

/-- A place that is visited for the first time is one place less. -/
theorem unvisited_insert_lt {visited : Nat} {t : Thread} (haddress : t.address < program.size)
    (hposition : t.position ≤ text.size)
    (hnew : ¬ t.Visited program visited) :
    unvisited program text (visited ||| 1 <<< (t.position * program.size + t.address)) <
      unvisited program text visited := by
  have hbit : visited.testBit (t.position * program.size + t.address) = false := by
    rw [← Bool.not_eq_true]
    exact fun h => hnew ⟨haddress, h⟩
  refine Finset.card_lt_card (Finset.ssubset_iff_of_subset ?_ |>.2
    ⟨t.position * program.size + t.address, ?_, ?_⟩)
  · intro state h
    simp only [Finset.mem_filter, Nat.testBit_or, Bool.or_eq_false_iff] at h ⊢
    exact ⟨h.1, h.2.1⟩
  · have hstate : t.position * program.size + t.address < program.size * (text.size + 1) := by
      calc t.position * program.size + t.address
          < (t.position + 1) * program.size := by rw [Nat.succ_mul]; omega
        _ ≤ (text.size + 1) * program.size := Nat.mul_le_mul_right _ (by omega)
        _ = program.size * (text.size + 1) := Nat.mul_comm _ _
    simpa [hstate] using hbit
  · simp [Nat.testBit_or, Nat.one_shiftLeft, Nat.testBit_two_pow]

/-! ### Covered places -/

variable (program text) in
/-- From every visited place one comes to visited places and to places on the stack only. None of
    them accepts at once. -/
def Covered (visited : Nat) (stack : List Thread) : Prop :=
  ∀ t : Thread, t.Visited program visited →
    program[t.address]? ≠ some .accept ∧
      ∀ instruction, program[t.address]? = some instruction →
        ∀ t' ∈ instruction.follow text t, t'.address < program.size →
          t'.Visited program visited ∨ ∃ waiting ∈ stack, waiting.place = t'.place

theorem covered_zero : Covered program text 0 [] := by
  rintro t ⟨-, hbit⟩
  simp at hbit

/-- A thread at a visited place, or outside of the program, need not wait. -/
theorem Covered.skip {visited : Nat} {t : Thread} {stack : List Thread}
    (h : Covered program text visited (t :: stack))
    (ht : t.address < program.size → t.Visited program visited) :
    Covered program text visited stack := by
  intro s hs
  refine ⟨(h s hs).1, fun instruction hget s' hs' haddress => ?_⟩
  obtain hvisited | ⟨waiting, hwaiting, hplace⟩ := (h s hs).2 instruction hget s' hs' haddress
  · exact .inl hvisited
  · obtain rfl | hwaiting := List.mem_cons.1 hwaiting
    · have hlt : waiting.address < program.size :=
        lt_of_eq_of_lt (Prod.mk.inj hplace).1 haddress
      exact .inl ((Thread.visited_congr hplace).1 (ht hlt))
    · exact .inr ⟨waiting, hwaiting, hplace⟩

/-- A new place is covered by the threads that go on from it. -/
theorem Covered.visit {visited : Nat} {t : Thread} {stack : List Thread}
    {instruction : Instruction} (h : Covered program text visited (t :: stack))
    (hget : program[t.address]? = some instruction) (hother : instruction ≠ .accept) :
    Covered program text (visited ||| 1 <<< (t.position * program.size + t.address))
      (instruction.follow text t ++ stack) := by
  have ht : t.address < program.size := (Array.getElem?_eq_some_iff.1 hget).1
  intro s hs
  obtain hold | hplace := (Thread.visited_insert ht).1 hs
  · refine ⟨(h s hold).1, fun i hi s' hs' haddress => ?_⟩
    rw [Thread.visited_insert ht]
    obtain hvisited | ⟨waiting, hwaiting, hplace⟩ := (h s hold).2 i hi s' hs' haddress
    · exact .inl (.inl hvisited)
    · obtain rfl | hwaiting := List.mem_cons.1 hwaiting
      · exact .inl (.inr hplace.symm)
      · exact .inr ⟨waiting, List.mem_append_right _ hwaiting, hplace⟩
  · have haddress : s.address = t.address := (Prod.mk.inj hplace).1
    rw [haddress]
    refine ⟨by simpa [hget] using hother, fun i hi s' hs' _ => .inr ?_⟩
    obtain rfl : instruction = i := Option.some.inj (hget.symm.trans hi)
    have hmem : s'.place ∈ (instruction.follow text t).map Thread.place := by
      rw [← instruction.map_place_follow hplace]
      exact List.mem_map_of_mem hs'
    obtain ⟨waiting, hwaiting, hsame⟩ := List.mem_map.1 hmem
    exact ⟨waiting, List.mem_append_left _ hwaiting, hsame⟩

theorem Thread.Accepts.address_lt {steps : Nat} {t last : Thread}
    (h : t.Accepts program text steps last) : t.address < program.size := by
  cases h with
  | accept hget | step hget => exact (Array.getElem?_eq_some_iff.1 hget).1

/-- When nothing is waiting, no visited place accepts. -/
theorem Covered.not_accepts {visited : Nat} (h : Covered program text visited [])
    {steps : Nat} {t last : Thread} (haccepts : t.Accepts program text steps last) :
    ¬ t.Visited program visited := by
  induction haccepts with
  | accept hget => exact fun ht => (h _ ht).1 hget
  | step hget hfollow haccepts ih =>
    intro ht
    obtain hvisited | ⟨_, hwaiting, -⟩ := (h _ ht).2 _ hget _ hfollow haccepts.address_lt
    · exact ih hvisited
    · exact absurd hwaiting List.not_mem_nil

/-! ### The search -/

theorem explore_of_accept {fuel visited : Nat} {t : Thread} {stack : List Thread}
    (hget : program[t.address]? = some .accept) :
    explore program text (fuel + 1) visited (t :: stack) = some t := by
  simp [explore, hget]

theorem explore_of_visited {fuel visited : Nat} {t : Thread} {stack : List Thread}
    (hget : program[t.address]? ≠ some .accept)
    (ht : t.address < program.size → t.Visited program visited) :
    explore program text (fuel + 1) visited (t :: stack) =
      explore program text fuel visited stack := by
  cases hinstruction : program[t.address]? with
  | none => simp [explore, hinstruction]
  | some instruction =>
    have hbit := (ht (Array.getElem?_eq_some_iff.1 hinstruction).1).2
    cases instruction with
    | accept => exact absurd hinstruction hget
    | one | look | fork | mark | jump => simp [explore, hinstruction, hbit]

theorem explore_of_not_visited {fuel visited : Nat} {t : Thread} {stack : List Thread}
    {instruction : Instruction} (hget : program[t.address]? = some instruction)
    (hother : instruction ≠ .accept) (ht : ¬ t.Visited program visited) :
    explore program text (fuel + 1) visited (t :: stack) =
      explore program text fuel (visited ||| 1 <<< (t.position * program.size + t.address))
        (instruction.follow text t ++ stack) := by
  have hbit : visited.testBit (t.position * program.size + t.address) = false := by
    rw [← Bool.not_eq_true]
    exact fun h => ht ⟨(Array.getElem?_eq_some_iff.1 hget).1, h⟩
  cases instruction with
  | accept => exact absurd rfl hother
  | one | look | fork | mark | jump => simp [explore, hget, hbit]

variable (program text) in
/-- All that follows from the visited places and from the threads of a stack has been visited. -/
structure Exhausted (visited : Nat) (stack : List Thread) (visited' : Nat) : Prop where
  covered : Covered program text visited' []
  visited : ∀ t : Thread, t.address < program.size → t.Visited program visited ∨ t ∈ stack →
    t.Visited program visited'

theorem Exhausted.skip {visited visited' : Nat} {t : Thread} {stack : List Thread}
    (h : Exhausted program text visited stack visited')
    (ht : t.address < program.size → t.Visited program visited) :
    Exhausted program text visited (t :: stack) visited' := by
  refine ⟨h.covered, fun s hlt hs => ?_⟩
  obtain hs | hs := hs
  · exact h.visited s hlt (.inl hs)
  · obtain rfl | hs := List.mem_cons.1 hs
    · exact h.visited s hlt (.inl (ht hlt))
    · exact h.visited s hlt (.inr hs)

theorem Exhausted.visit {visited visited' : Nat} {t : Thread} {followers stack : List Thread}
    (ht : t.address < program.size)
    (h : Exhausted program text (visited ||| 1 <<< (t.position * program.size + t.address))
      (followers ++ stack) visited') :
    Exhausted program text visited (t :: stack) visited' := by
  refine ⟨h.covered, fun s hlt hs => ?_⟩
  obtain hs | hs := hs
  · exact h.visited s hlt (.inl ((Thread.visited_insert ht).2 (.inl hs)))
  · obtain rfl | hs := List.mem_cons.1 hs
    · exact h.visited s hlt (.inl ((Thread.visited_insert ht).2 (.inr rfl)))
    · exact h.visited s hlt (.inr (List.mem_append_right _ hs))

/-- A search goes through the first threads of its stack, with all that follows from them, before it
    comes to the other ones: either one of the first threads accepts, or the rest of the stack is
    searched after they are exhausted. -/
theorem explore_append (back : List Thread) {fuel visited : Nat} {front : List Thread}
    (hcovered : Covered program text visited front)
    (hposition : ∀ t ∈ front, t.position ≤ text.size)
    (hfuel : front.length + back.length + 2 * unvisited program text visited < fuel) :
    (∃ t ∈ front, ∃ steps last, t.Accepts program text steps last ∧
      explore program text fuel visited (front ++ back) = some last) ∨
    ∃ fuel' visited', explore program text fuel visited (front ++ back) =
        explore program text fuel' visited' back ∧
      Exhausted program text visited front visited' ∧
      back.length + 2 * unvisited program text visited' < fuel' := by
  induction fuel generalizing visited front with
  | zero => omega
  | succ fuel ih =>
    cases front with
    | nil =>
      have hexhausted : Exhausted program text visited [] visited :=
        ⟨hcovered, fun t _ ht => by simpa using ht⟩
      exact .inr ⟨fuel + 1, visited, rfl, hexhausted, by simpa using hfuel⟩
    | cons t front =>
      rw [List.forall_mem_cons] at hposition
      rw [List.length_cons] at hfuel
      rw [List.cons_append]
      by_cases hget : program[t.address]? = some .accept
      · exact .inl ⟨t, List.mem_cons_self, 0, t, .accept hget, explore_of_accept hget⟩
      by_cases ht : t.address < program.size → t.Visited program visited
      · -- The thread leads nowhere new, and is dropped.
        rw [explore_of_visited hget ht]
        obtain ⟨s, hs, hfound⟩ | ⟨fuel', visited', hrest, hexhausted, hfuel'⟩ :=
          ih (hcovered.skip ht) hposition.2 (by omega)
        · exact .inl ⟨s, List.mem_cons_of_mem _ hs, hfound⟩
        · exact .inr ⟨fuel', visited', hrest, hexhausted.skip ht, hfuel'⟩
      · -- The thread is replaced by those that follow it.
        obtain ⟨hlt, hnew⟩ := Classical.not_imp.1 ht
        have hinstruction := Array.getElem?_eq_getElem hlt
        have hother : program[t.address] ≠ .accept := fun h => hget (by rw [hinstruction, h])
        have hless := unvisited_insert_lt hlt hposition.1 hnew
        have hfollow : (program[t.address].follow text t).length ≤ 2 :=
          Instruction.length_follow_le _ t
        rw [explore_of_not_visited hinstruction hother hnew, ← List.append_assoc]
        obtain ⟨s, hs, steps, last, haccepts, hfound⟩ |
            ⟨fuel', visited', hrest, hexhausted, hfuel'⟩ :=
          ih (hcovered.visit hinstruction hother)
            (List.forall_mem_append.2
              ⟨fun _ => Instruction.position_le_of_mem_follow hposition.1, hposition.2⟩)
            (by rw [List.length_append]; omega)
        · obtain hs | hs := List.mem_append.1 hs
          · exact .inl ⟨t, List.mem_cons_self, steps + 1, last, .step hinstruction hs haccepts,
              hfound⟩
          · exact .inl ⟨s, List.mem_cons_of_mem _ hs, steps, last, haccepts, hfound⟩
        · exact .inr ⟨fuel', visited', hrest, hexhausted.visit hlt, hfuel'⟩

variable (program text) in
/-- Nothing that follows from a thread is accepted. -/
def Thread.Fails (t : Thread) : Prop :=
  ∀ steps last, ¬ t.Accepts program text steps last

theorem Exhausted.fails {visited visited' : Nat} {t : Thread} {stack : List Thread}
    (h : Exhausted program text visited stack visited') (ht : t ∈ stack) :
    t.Fails program text :=
  fun _ _ haccepts =>
    h.covered.not_accepts haccepts (h.visited t haccepts.address_lt (.inr ht))

/-- A search gives a thread that is accepted, from the first thread of the stack that accepts. -/
theorem explore_cases {fuel visited : Nat} {stack : List Thread}
    (hcovered : Covered program text visited [])
    (hposition : ∀ t ∈ stack, t.position ≤ text.size)
    (hfuel : stack.length + 2 * unvisited program text visited < fuel) :
    (explore program text fuel visited stack = none ∧ ∀ t ∈ stack, t.Fails program text) ∨
    ∃ front t back steps last, stack = front ++ t :: back ∧
      (∀ s ∈ front, s.Fails program text) ∧ t.Accepts program text steps last ∧
      explore program text fuel visited stack = some last := by
  induction stack generalizing fuel visited with
  | nil =>
    obtain ⟨fuel, rfl⟩ : ∃ n, fuel = n + 1 := ⟨fuel - 1, by omega⟩
    exact .inl ⟨rfl, by simp⟩
  | cons t stack ih =>
    rw [List.forall_mem_cons] at hposition
    have hwaits : Covered program text visited [t] := fun s hs =>
      ⟨(hcovered s hs).1, fun i hi s' hs' hlt => ((hcovered s hs).2 i hi s' hs' hlt).imp_right
        fun ⟨waiting, hwaiting, _⟩ => absurd hwaiting List.not_mem_nil⟩
    have happend := explore_append stack hwaits (by simpa using hposition.1)
      (by rw [List.length_cons] at hfuel; simpa [Nat.add_comm] using hfuel)
    rw [List.singleton_append] at happend
    obtain ⟨s, hs, steps, last, haccepts, hfound⟩ | ⟨fuel', visited', hrest, hexhausted, hfuel'⟩ :=
      happend
    · obtain rfl := List.mem_singleton.1 hs
      exact .inr ⟨[], s, stack, steps, last, rfl, by simp, haccepts, hfound⟩
    · rw [hrest]
      have ht : t.Fails program text := hexhausted.fails List.mem_cons_self
      obtain ⟨hnone, hfails⟩ | ⟨front, s, back, steps, last, rfl, hfront, haccepts, hfound⟩ :=
        ih hexhausted.covered hposition.2 hfuel'
      · exact .inl ⟨hnone, List.forall_mem_cons.2 ⟨ht, hfails⟩⟩
      · exact .inr ⟨t :: front, s, back, steps, last, rfl, List.forall_mem_cons.2 ⟨ht, hfront⟩,
          haccepts, hfound⟩

/-- The thread that starts at a position. -/
def Thread.start (position : Nat) : Thread :=
  ⟨0, position, position, []⟩

variable (program text) in
/-- A search from all positions of a text starts at the first one where it can succeed. -/
theorem explore_startingThreads :
    (explore program text (searchFuel program text) 0 (startingThreads text) = none ∧
      ∀ position ≤ text.size, (Thread.start position).Fails program text) ∨
    ∃ position ≤ text.size, ∃ steps last,
      (∀ earlier < position, (Thread.start earlier).Fails program text) ∧
      (Thread.start position).Accepts program text steps last ∧
      explore program text (searchFuel program text) 0 (startingThreads text) = some last := by
  have hstart : startingThreads text = (List.range (text.size + 1)).map Thread.start := rfl
  have hposition : ∀ t ∈ startingThreads text, t.position ≤ text.size := by
    rw [hstart, List.forall_mem_map]
    exact fun position h => Nat.le_of_lt_succ (List.mem_range.1 h)
  have hfuel : (startingThreads text).length + 2 * unvisited program text 0 <
      searchFuel program text := by
    have hcard : unvisited program text 0 ≤ program.size * (text.size + 1) :=
      (Finset.card_filter_le _ _).trans_eq (Finset.card_range _)
    have hexpand : searchFuel program text =
        2 * (program.size * (text.size + 1)) + (text.size + 1) + 1 := by
      rw [searchFuel, Nat.add_mul, Nat.mul_assoc, Nat.one_mul]
    rw [hstart, List.length_map, List.length_range]
    omega
  obtain ⟨hnone, hfails⟩ | ⟨front, t, back, steps, last, hsplit, hfront, haccepts, hfound⟩ :=
    explore_cases covered_zero hposition hfuel
  · refine .inl ⟨hnone, fun position hle => hfails _ ?_⟩
    exact List.mem_map_of_mem (List.mem_range.2 (Nat.lt_succ_of_le hle))
  · -- The first thread that accepts starts at the position that is its place in the list.
    have hget (i : Nat) (hi : i ≤ text.size) :
        (startingThreads text)[i]? = some (Thread.start i) := by
      rw [hstart, List.getElem?_map, List.getElem?_range (Nat.lt_succ_of_le hi)]
      rfl
    have hlength : front.length ≤ text.size := by
      have hcount : text.size + 1 = front.length + (back.length + 1) := by
        simpa [hstart] using congrArg List.length hsplit
      omega
    have ht : t = Thread.start front.length := by
      simpa [hsplit] using hget front.length hlength
    refine .inr ⟨front.length, hlength, steps, last, fun earlier hlt => ?_, ht ▸ haccepts, hfound⟩
    have hearlier := hget earlier (by omega)
    rw [hsplit, List.getElem?_append_left hlt] at hearlier
    exact hfront _ (List.mem_of_getElem? hearlier)

end Versioning.Pattern
