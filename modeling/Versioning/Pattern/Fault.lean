/-!
# Faults of a pattern

What can be wrong with the text of a pattern, and what is said about it.
-/

namespace Versioning.Pattern

/-- What can be wrong with the text of a pattern. -/
inductive Fault where
  | groupUnclosed | groupUnopened | groupName | groupNameRepeated
  | repetitionOfNothing | repetitionCount
  | setUnclosed | setRange | setMember
  | escape | backReference | lookAround | flags
  | unknownProperty | notUnicode
  | tooDeep | tooLarge
  deriving DecidableEq, Repr

/-- What a fault says. -/
def Fault.message : Fault → String
  | .groupUnclosed => "regex parse error: unclosed group"
  | .groupUnopened => "regex parse error: unopened group"
  | .groupName => "regex parse error: invalid capture group name"
  | .groupNameRepeated => "regex parse error: duplicate capture group name"
  | .repetitionOfNothing => "regex parse error: repetition operator missing expression"
  | .repetitionCount => "regex parse error: invalid repetition count"
  | .setUnclosed => "regex parse error: unclosed character class"
  | .setRange => "regex parse error: invalid character class range"
  | .setMember => "regex parse error: invalid character class member"
  | .escape => "regex parse error: unrecognized escape sequence"
  | .backReference => "regex parse error: backreferences are not supported"
  | .lookAround => "regex parse error: look-around is not supported"
  | .flags => "regex parse error: invalid flags"
  | .unknownProperty => "regex parse error: Unicode property not found"
  | .notUnicode => "regex parse error: pattern can match text that is not Unicode"
  | .tooDeep => "regex parse error: nested too deeply"
  | .tooLarge => "Compiled regex exceeds size limit of 10485760 bytes."

end Versioning.Pattern
