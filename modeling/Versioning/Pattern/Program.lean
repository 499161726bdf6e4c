import Versioning.Pattern.Syntax

/-!
# Patterns as programs

For searching, a pattern is laid out as a list of instructions. The code of a
pattern is entered at its first instruction and leaves by jumping to an address
that the surroundings choose, so the code of a compound pattern is the code of
its parts with the addresses filled in (`Node.code`). Where there is a choice,
the fork names the preferred address first.

Code knows neither the text nor how it is searched: that is
`Versioning.Pattern.Search`.
-/

namespace Versioning.Pattern

/-- An instruction; the addresses say where to go on. -/
inductive Instruction where
  /-- Consumes one character of the set. -/
  | one (set : CharSet) (next : Nat)
  /-- Goes on if the condition holds here. -/
  | look (condition : Look) (next : Nat)
  /-- Goes on at either address, at the first one by preference. -/
  | fork (preferred other : Nat)
  /-- Notes the position under a number. -/
  | mark (slot next : Nat)
  /-- Goes on unconditionally. -/
  | jump (next : Nat)
  /-- The pattern has matched. -/
  | accept
  deriving DecidableEq, Repr

/-- A choice between going on with a repetition and leaving it. -/
def Instruction.choice (greedy : Bool) (again leave : Nat) : Instruction :=
  if greedy then .fork again leave else .fork leave again

namespace Node

/-- The instructions of a pattern, laid out from address `start`, that go on at `next`. The
    ends of capture group `n` are noted under `2 * n` and `2 * n + 1`. -/
def code : Node → (start next : Nat) → List Instruction
  | empty, _, next => [.jump next]
  | one set, _, next => [.one set next]
  | look condition, _, next => [.look condition next]
  | seq a b, start, next =>
    a.code start (start + a.size) ++ b.code (start + a.size) next
  | alt a b, start, next =>
    .fork (start + 1) (start + 1 + a.size) ::
      (a.code (start + 1) next ++ b.code (start + 1 + a.size) next)
  | capture n a, start, next =>
    .mark (2 * n) (start + 1) ::
      (a.code (start + 1) (start + 1 + a.size) ++ [.mark (2 * n + 1) next])
  | optional greedy a, start, next =>
    .choice greedy (start + 1) next :: a.code (start + 1) next
  | star greedy a, start, next =>
    .choice greedy (start + 1) next :: a.code (start + 1) start
  | plus greedy a, start, next =>
    a.code start (start + a.size) ++ [.choice greedy start next]

/-- The whole program of a pattern: its code, and the acceptance after it. -/
def program (a : Node) : List Instruction :=
  a.code 0 a.size ++ [.accept]

/-- The code of a pattern has as many instructions as its size says. -/
@[simp] theorem length_code (a : Node) (start next : Nat) :
    (a.code start next).length = a.size := by
  induction a generalizing start next with
  | empty => rfl
  | one _ => rfl
  | look _ => rfl
  | seq a b iha ihb => simp [code, size, iha, ihb]
  | alt a b iha ihb => simp [code, size, iha, ihb]
  | capture _ a ih => simp [code, size, ih]
  | optional _ a ih => simp [code, size, ih]
  | star _ a ih => simp [code, size, ih]
  | plus _ a ih => simp [code, size, ih]

end Node

end Versioning.Pattern
