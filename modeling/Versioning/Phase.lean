/-!
# Phases of a release

A release gives every module a version in one or two *phases*: the version to
release it as and the version to go on with; or, when a branch is made, the
version on the branch and the version left in the working copy. All but the
released version are versions under development and have to carry the marker.
-/

namespace Versioning

/-- The stage of a release that a version is resolved for. -/
inductive Phase where
  | release | development | branch | workingCopy
  deriving DecidableEq, Repr, Inhabited

namespace Phase

/-- The phases in their order. -/
def all : List Phase :=
  [release, development, branch, workingCopy]

/-- The position of a phase in their order. -/
def rank : Phase → Nat
  | release => 0
  | development => 1
  | branch => 2
  | workingCopy => 3

instance : Ord Phase := ⟨compareOn rank⟩

/-- Whether the versions of the phase carry the snapshot marker. -/
def expectsSnapshot (phase : Phase) : Bool :=
  phase != release

/-- The name of a phase in messages and documents. -/
def name : Phase → String
  | release => "release"
  | development => "development"
  | branch => "branch"
  | workingCopy => "working-copy"

/-- The phase with a name. -/
def ofName? (text : String) : Option Phase :=
  all.find? fun phase => phase.name == text

/-- What the operator is asked for. -/
def subject : Phase → String
  | release => "release version"
  | development => "new development version"
  | branch => "branch version"
  | workingCopy => "new working copy version"

/-- The question that asks for the version of a module, given the module's display name and id. -/
def question (phase : Phase) (moduleName moduleId : String) : String :=
  "What is the " ++ phase.subject ++ " for \"" ++ moduleName ++ "\"? (" ++ moduleId ++ ")"

/-- A phase is known by its rank. -/
theorem rank_injective {a b : Phase} (h : a.rank = b.rank) : a = b := by
  cases a <;> cases b <;> first | rfl | cases h

instance : Std.TransOrd Phase :=
  inferInstanceAs (Std.TransCmp (compareOn rank))

instance : Std.LawfulEqOrd Phase where
  eq_of_compare h := rank_injective (Std.LawfulEqOrd.eq_of_compare h)

/-- A phase is known by its name. -/
theorem ofName?_name (phase : Phase) : ofName? phase.name = some phase := by
  cases phase <;> decide

/-- Two phases have different names. -/
theorem name_injective {a b : Phase} (h : a.name = b.name) : a = b :=
  Option.some.inj ((ofName?_name a).symm.trans (h ▸ ofName?_name b))

end Phase

end Versioning
