/-!
# Diagnostics

What the resolution of versions has to say besides its result is kept as a list
of messages with a severity, in the order in which they were reported.
-/

namespace Versioning

/-- The severity of a message. -/
inductive Severity where
  | debug | info | warn
  deriving DecidableEq, Repr

/-- The name of a severity. -/
def Severity.name : Severity → String
  | .debug => "debug"
  | .info => "info"
  | .warn => "warn"

/-- The severity with a name. -/
def Severity.ofName? (text : String) : Option Severity :=
  [Severity.debug, .info, .warn].find? fun severity => severity.name == text

/-- A reported message. -/
structure Message where
  severity : Severity
  text : String
  deriving DecidableEq, Repr

/-- Whether `needle` occurs in a text. -/
def occursIn (needle : List Char) : List Char → Bool
  | [] => needle.isEmpty
  | c :: rest => needle.isPrefixOf (c :: rest) || occursIn needle rest

/-- Whether a message of the given severity holds the given text. -/
def reports (messages : List Message) (severity : Severity) (needle : String) : Bool :=
  messages.any fun m => m.severity == severity && occursIn needle.toList m.text.toList

end Versioning
