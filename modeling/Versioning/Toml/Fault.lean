/-!
# Faults of a document

What can be wrong with the text of a document, or with a value in the place where it
stands.
-/

namespace Versioning.Toml

/-- What can be wrong with a document. -/
inductive Fault where
  | character | string | number | datetime | key | duplicateKey | notATable | nesting | value
  | type (expected : String)
  | missing (field : String)
  deriving DecidableEq, Repr

/-- What a fault says. -/
def Fault.message : Fault → String
  | .character => "unexpected character"
  | .string => "invalid string"
  | .number => "invalid number"
  | .datetime => "invalid date or time"
  | .key => "invalid key"
  | .duplicateKey => "duplicate key"
  | .notATable => "dotted key extends a value that is no table"
  | .nesting => "recursion limit exceeded"
  | .value => "invalid value"
  | .type expected => "invalid type, expected " ++ expected
  | .missing field => "missing field " ++ field

end Versioning.Toml
