import Versioning.Pattern.CharSet

/-!
# Patterns as trees

A pattern is built from single characters and from conditions on the place
between two characters, by sequence, alternatives and repetition. Alternatives
are ordered: the first one is preferred, and a greedy repetition prefers to go
on. `Node.repeated` writes counted repetitions in terms of the three basic ones.

* `Look.holds` decides a condition at a position of a text;
* `Node.nullable` says whether a pattern can match the empty text, which
  matters for repetition: a repetition of such a body stops after an empty round.
-/

namespace Versioning.Pattern

/-- A condition on a position of the text, which consumes nothing. -/
inductive Look where
  | textStart | textEnd
  | lineStart | lineEnd
  | returnLineStart | returnLineEnd
  | wordBoundary (ascii negated : Bool)
  | wordStart (ascii half : Bool)
  | wordEnd (ascii half : Bool)
  deriving DecidableEq, Repr

namespace Look

/-- Whether there is a word character; beyond an end of the text there is none. -/
def isWord (ascii : Bool) : Option Char → Bool
  | none => false
  | some c => if ascii then c.isAlphanum || c == '_' else Unicode.isWordCharacter c

/-- Whether a condition holds between the character `before` and the character `after`. -/
def holds (look : Look) (before after : Option Char) : Bool :=
  match look with
  | textStart => before.isNone
  | textEnd => after.isNone
  | lineStart => before.isNone || before == some '\n'
  | lineEnd => after.isNone || after == some '\n'
  | returnLineStart =>
    before.isNone || before == some '\n' || (before == some '\r' && after != some '\n')
  | returnLineEnd =>
    after.isNone || after == some '\r' || (after == some '\n' && before != some '\r')
  | wordBoundary ascii negated => (isWord ascii before != isWord ascii after) != negated
  | wordStart ascii half => !isWord ascii before && (half || isWord ascii after)
  | wordEnd ascii half => !isWord ascii after && (half || isWord ascii before)

end Look

/-- A pattern. The Boolean of a repetition tells whether it is greedy. -/
inductive Node where
  | empty
  | one (set : CharSet)
  | look (condition : Look)
  | seq (first second : Node)
  | alt (preferred other : Node)
  | capture (index : Nat) (body : Node)
  | optional (greedy : Bool) (body : Node)
  | star (greedy : Bool) (body : Node)
  | plus (greedy : Bool) (body : Node)
  deriving DecidableEq, Repr

namespace Node

/-- Whether the pattern can match without consuming a character. -/
def nullable : Node → Bool
  | empty => true
  | one _ => false
  | look _ => true
  | seq a b => a.nullable && b.nullable
  | alt a b => a.nullable || b.nullable
  | capture _ a => a.nullable
  | optional _ _ => true
  | star _ _ => true
  | plus _ a => a.nullable

/-- Whether the pattern never consumes a character. -/
def consumesNothing : Node → Bool
  | empty => true
  | one _ => false
  | look _ => true
  | seq a b => a.consumesNothing && b.consumesNothing
  | alt a b => a.consumesNothing && b.consumesNothing
  | capture _ a => a.consumesNothing
  | optional _ a => a.consumesNothing
  | star _ a => a.consumesNothing
  | plus _ a => a.consumesNothing

/-- The size of a pattern: one for a single character, a condition or a choice, and one for each
    end of a capture group. -/
def size : Node → Nat
  | empty => 1
  | one _ => 1
  | look _ => 1
  | seq a b => a.size + b.size
  | alt a b => a.size + b.size + 1
  | capture _ a => a.size + 2
  | optional _ a => a.size + 1
  | star _ a => a.size + 1
  | plus _ a => a.size + 1

/-- The patterns one after the other. -/
def sequence : List Node → Node
  | [] => empty
  | [a] => a
  | a :: rest => seq a (sequence rest)

/-- Any number of times. When the body can match the empty text, the repetition is entered
    at least once or not at all. -/
def many (greedy : Bool) (a : Node) : Node :=
  if a.nullable then optional greedy (plus greedy a) else star greedy a

/-- At most `count` times. -/
def atMost (greedy : Bool) (a : Node) : Nat → Node
  | 0 => empty
  | 1 => optional greedy a
  | count + 1 => optional greedy (seq a (atMost greedy a count))

/-- At least `min` times and at most `max?` times, if there is a limit. -/
def repeated (greedy : Bool) (a : Node) (min : Nat) (max? : Option Nat) : Node :=
  -- Rounds that consume nothing need no second one.
  let min := if a.consumesNothing then Nat.min min 1 else min
  let max? := if a.consumesNothing then some (Nat.min (max?.getD 1) 1) else max?
  match max? with
  | none =>
    if min = 0 then many greedy a
    else sequence (List.replicate (min - 1) a ++ [plus greedy a])
  | some max =>
    if max ≤ min then sequence (List.replicate min a)
    else sequence (List.replicate min a ++ [atMost greedy a (max - min)])

end Node

end Versioning.Pattern
