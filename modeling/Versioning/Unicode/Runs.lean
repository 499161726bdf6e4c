/-!
# Tables of runs

Properties of characters are constant on long runs of code points. A table of such a property is
written as one text, which may be broken into lines: for each run in turn, how long it is, and
behind this its *mark*, which tells what the property is there. In tables of sets the marks are
a plus and a hyphen. What is behind the last run has the mark of that.

* `readRuns` reads a table, `RunTable.ofLines` its lines;
* `lastAtOrBefore` searches for the run that a code point lies in;
* `RunTable.mark` is the mark of a character.
-/

namespace Versioning.Unicode

/-- The last entry at or before `key` among the entries `low` to `high - 1`, which are in
    ascending order; at most `fuel` halvings are made. -/
def lastAtOrBefore {α : Type} (entries : Array (Nat × α)) (key : Nat) :
    (fuel low high : Nat) → Option α
  | 0, _, _ => none
  | fuel + 1, low, high =>
    if high ≤ low + 1 then (entries[low]?).map (·.2)
    else
      let middle := (low + high) / 2
      match entries[middle]? with
      | none => none
      | some (start, _) =>
        if start ≤ key then lastAtOrBefore entries key fuel middle high
        else lastAtOrBefore entries key fuel low middle

/-- The first code point of each run, in ascending order, with the mark of the run. -/
abbrev RunTable := Array (Nat × String)

/-- Reads a table of runs. The run at hand starts at code point `start`; of its length and its mark
    something was read already, of the mark in reverse. -/
def readRuns (start length : Nat) (mark : List Char) : List Char → RunTable → RunTable
  | [], runs => runs.push (start, String.ofList mark.reverse)
  | c :: rest, runs =>
    if !c.isDigit then readRuns start length (c :: mark) rest runs
    else
      let digit := c.toNat - '0'.toNat
      if mark.isEmpty then readRuns start (10 * length + digit) [] rest runs
      else readRuns (start + length) digit [] rest (runs.push (start, String.ofList mark.reverse))

namespace RunTable

/-- Reads the lines of a table. -/
def ofLines (lines : List String) : RunTable :=
  readRuns 0 0 [] (lines.flatMap String.toList) #[]

/-- The mark of the run that a character lies in. -/
def mark (table : RunTable) (c : Char) : String :=
  (lastAtOrBefore table c.toNat 32 0 table.size).getD ""

/-- Whether a character belongs to the set that a table describes. -/
def has (table : RunTable) (c : Char) : Bool :=
  table.mark c == "+"

end RunTable

/-- A set of characters with the names that patterns may give to it, in lower case and without
    spaces. It is known by the first one. -/
structure NamedSet where
  names : List String
  has : Char → Bool

end Versioning.Unicode
