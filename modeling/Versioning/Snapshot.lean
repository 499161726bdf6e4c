import Versioning.Unicode.Property

/-!
# The snapshot marker

A version under development is marked as a *snapshot*: its text ends with the
marker word, or with the time stamp and build number that a deployed snapshot
carries in place of it. `isSnapshot` is the test that decides which versions a
phase accepts.

* `takeSuffix?` removes a given end from a text;
* `hasTimestamp` recognises `-yyyymmdd.hhmmss-n` at the end. It reads the text
  backwards, where the three runs of digits cannot be confused.
-/

namespace Versioning

/-- The word that marks a version under development. -/
def snapshotMarker : String := "SNAPSHOT"

/-- The marker has no hyphen of its own. -/
theorem snapshotMarker_suffix_hyphen_iff {text : List Char} :
    snapshotMarker.toList <:+ '-' :: text ↔ snapshotMarker.toList <:+ text := by
  rw [List.suffix_cons_iff]
  exact or_iff_right fun h => absurd (List.cons_eq_cons.1 h).1 (by decide)

/-- What comes before the given end of a text, if the text ends so. -/
def takeSuffix? (suffix text : List Char) : Option (List Char) :=
  if suffix.isSuffixOf text then some (text.take (text.length - suffix.length)) else none

/-- What comes before the given end is what the end was appended to. -/
theorem takeSuffix?_eq_some_iff {suffix text rest : List Char} :
    takeSuffix? suffix text = some rest ↔ text = rest ++ suffix := by
  rw [takeSuffix?]
  constructor
  · intro h
    split at h
    · next hs =>
      obtain ⟨before, rfl⟩ := List.isSuffixOf_iff_suffix.1 hs
      simp only [Option.some.injEq] at h
      subst h
      simp
    · cases h
  · rintro rfl
    rw [if_pos (List.isSuffixOf_iff_suffix.2 ⟨rest, rfl⟩)]
    simp

/-- Removes `count` digits and the separator behind them from the front of a reversed text. -/
def dropDigitsThen (count : Nat) (separator : Char) (reversed : List Char) :
    Option (List Char) :=
  if count ≤ reversed.length && (reversed.take count).all Unicode.isDecimalDigit then
    match reversed.drop count with
    | c :: rest => if c = separator then some rest else none
    | [] => none
  else none

/-- Whether a text ends with a hyphen, eight digits, a point, six digits, a hyphen and a number,
    after a first part on a single line. -/
def hasTimestamp (text : List Char) : Bool :=
  let reversed := text.reverse
  let digits := reversed.takeWhile Unicode.isDecimalDigit
  match reversed.drop digits.length with
  | '-' :: rest =>
    match dropDigitsThen 6 '.' rest with
    | some rest =>
      match dropDigitsThen 8 '-' rest with
      | some start => !digits.isEmpty && !start.contains '\n'
      | none => false
    | none => false
  | _ => false

/-- Whether a version carries the marker of a version under development. -/
def isSnapshot (version : String) : Bool :=
  snapshotMarker.toList.isSuffixOf version.toList || hasTimestamp version.toList

end Versioning
