import Versioning.Pattern.Reader
import Versioning.Pattern.Search

/-!
# Patterns

A pattern is a regular expression that was read once and can be searched for in any
text. Of the matches in a text the leftmost one counts, and of those that begin there
the one that the pattern prefers.

* `Pattern.ofText?` reads a pattern;
* `Pattern.search` is the match in a text, `Pattern.isMatch` whether there is one;
* `Pattern.firstGroup?` is what the first group of the pattern matched.
-/

namespace Versioning

open Pattern in
/-- A pattern that can be searched for, with the text that it was read from. -/
structure Pattern where
  source : String
  node : Pattern.Node
  program : Array Pattern.Instruction
  program_eq : program = node.program.toArray := by rfl

namespace Pattern

/-- Reads a pattern and lays out its program. -/
def ofText? (flags : Flags) (source : String) : Except Fault Pattern := do
  let node ← Node.ofText? flags source
  return { source, node, program := node.program.toArray }

/-- A match: a span of the text, and the positions noted on the way. -/
structure Match where
  start : Nat
  stop : Nat
  marks : List (Nat × Nat)
  deriving DecidableEq, Repr

/-- The leftmost match, and of those that start there the preferred one. -/
def search (p : Pattern) (text : Array Char) : Option Match :=
  (explore p.program text (searchFuel p.program text) 0 (startingThreads text)).map
    fun t => ⟨t.origin, t.position, t.marks⟩

/-- Whether the pattern matches anywhere in a text. -/
def isMatch (p : Pattern) (text : String) : Bool :=
  (p.search text.toList.toArray).isSome

/-- The span of a capture group, if the group took part in the match. Group 0 is the match. -/
def Match.group? (m : Match) (index : Nat) : Option (Nat × Nat) :=
  if index = 0 then some (m.start, m.stop)
  else
    match m.marks.lookup (2 * index), m.marks.lookup (2 * index + 1) with
    | some start, some stop => some (start, stop)
    | _, _ => none

/-- The characters of a span. -/
def spanText (text : List Char) (span : Nat × Nat) : List Char :=
  (text.drop span.1).take (span.2 - span.1)

/-- The text that the first capture group matched, or the whole match when that group took no
    part in it. -/
def firstGroup? (p : Pattern) (text : String) : Option String :=
  let chars := text.toList
  (p.search chars.toArray).map fun m =>
    String.ofList (spanText chars ((m.group? 1).getD (m.start, m.stop)))

end Pattern

end Versioning
