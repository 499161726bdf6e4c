import Versioning.Pattern.Program

/-!
# Searching with a pattern

A search looks for the leftmost place where a pattern matches and, there, for the
match that the pattern prefers. It explores the states of the program (an
address, a position) depth first: the states that start at the first position come
before those that start at the second one, and a fork's preferred branch before the
other. A state that was explored before is not explored again: it has led to
nothing, or it is still being explored further up, so nothing is lost and every
search ends after at most one visit per state.

* `Thread` is a state together with what the way to it has noted;
* `explore` is the depth-first search, from the `startingThreads` of a text.
-/

namespace Versioning.Pattern

/-- A way through the program that has come to address `address` and position `position`. -/
structure Thread where
  address : Nat
  position : Nat
  /-- Where in the text the way began. -/
  origin : Nat
  /-- The positions noted on the way under their numbers, the latest first. -/
  marks : List (Nat × Nat)
  deriving DecidableEq, Repr

/-- The character before a position. -/
def charBefore (text : Array Char) (position : Nat) : Option Char :=
  if position = 0 then none else text[position - 1]?

/-- The threads that go on from a thread by one instruction, in the order of preference. -/
def Instruction.follow (text : Array Char) (t : Thread) : Instruction → List Thread
  | .one set next =>
    match text[t.position]? with
    | some c =>
      if set.contains c then [{ t with address := next, position := t.position + 1 }] else []
    | none => []
  | .look condition next =>
    if condition.holds (charBefore text t.position) text[t.position]? then
      [{ t with address := next }]
    else []
  | .fork preferred other => [{ t with address := preferred }, { t with address := other }]
  | .mark slot next => [{ t with address := next, marks := (slot, t.position) :: t.marks }]
  | .jump next => [{ t with address := next }]
  | .accept => []

/-- Explores the threads of a stack, depth first, until one is accepted. The states visited
    so far are the bits of `visited`; at most `fuel` threads are looked at. -/
def explore (program : Array Instruction) (text : Array Char) :
    (fuel visited : Nat) → List Thread → Option Thread
  | 0, _, _ => none
  | _ + 1, _, [] => none
  | fuel + 1, visited, t :: stack =>
    match program[t.address]? with
    | none => explore program text fuel visited stack
    | some .accept => some t
    | some instruction =>
      let state := t.position * program.size + t.address
      if visited.testBit state then explore program text fuel visited stack
      else
        explore program text fuel (visited ||| 1 <<< state) (instruction.follow text t ++ stack)

/-- The threads from which a search starts: the beginning of the program at every position,
    from left to right. -/
def startingThreads (text : Array Char) : List Thread :=
  (List.range (text.size + 1)).map fun position => ⟨0, position, position, []⟩

/-- Enough for every starting thread and for two successors of every state. -/
def searchFuel (program : Array Instruction) (text : Array Char) : Nat :=
  (2 * program.size + 1) * (text.size + 1) + 1

end Versioning.Pattern
