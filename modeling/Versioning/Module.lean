/-!
# Modules

A release covers the modules of a *reactor*, in order. A module is known by its
id, the names of its group and of its artifact, which is written with a colon
between the two.

* `ModuleId.parse?` reads an id and `ModuleId.text` writes it;
* `Module.directory` is the directory whose history counts for a module.
-/

namespace Versioning

/-- The id of a module, whatever its version. -/
structure ModuleId where
  group : String
  artifact : String
  deriving DecidableEq, Repr, Inhabited

namespace ModuleId

/-- Ids are ordered by group, and by artifact within a group; names are compared character by
    character. -/
instance : Ord ModuleId :=
  ⟨compareLex (compareOn group) (compareOn artifact)⟩

instance : Std.TransOrd ModuleId :=
  inferInstanceAs (Std.TransCmp (compareLex (compareOn group) (compareOn artifact)))

instance : Std.LawfulEqOrd ModuleId where
  eq_of_compare {a b} h := by
    obtain ⟨hg, ha⟩ := Ordering.then_eq_eq.1 (show (compare a.group b.group).then
      (compare a.artifact b.artifact) = .eq from h)
    cases a; cases b
    simp only [Std.LawfulEqOrd.compare_eq_iff_eq] at hg ha
    rw [hg, ha]

/-- The text of an id. -/
def text (id : ModuleId) : String :=
  id.group ++ ":" ++ id.artifact

/-- Reads an id: a group and an artifact, neither of them empty, around the only colon. -/
def parse? (key : String) : Option ModuleId :=
  let chars := key.toList
  let group := chars.takeWhile (· != ':')
  match chars.dropWhile (· != ':') with
  | [] => none
  | _ :: artifact =>
    if group.isEmpty || artifact.isEmpty || artifact.contains ':' then none
    else some ⟨String.ofList group, String.ofList artifact⟩

/-- Reads an id, or says what was expected. -/
def ofText (key : String) : Except String ModuleId :=
  match parse? key with
  | some id => .ok id
  | none => .error ("expected 'group:artifact', got '" ++ key ++ "'")

/-- The part before the first colon has none. -/
theorem takeWhile_colon_append {before after : List Char} (h : ':' ∉ before) :
    (before ++ ':' :: after).takeWhile (· != ':') = before := by
  induction before with
  | nil => simp
  | cons c rest ih =>
    simp only [List.mem_cons, not_or] at h
    simp [ih h.2, Ne.symm h.1]

/-- The part from the first colon on begins with it. -/
theorem dropWhile_colon_append {before after : List Char} (h : ':' ∉ before) :
    (before ++ ':' :: after).dropWhile (· != ':') = ':' :: after := by
  induction before with
  | nil => simp
  | cons c rest ih =>
    simp only [List.mem_cons, not_or] at h
    simp [ih h.2, Ne.symm h.1]

end ModuleId

/-- A module that takes part in a release, with the version found in its descriptor. -/
structure Module where
  id : ModuleId
  /-- The name shown to the operator. -/
  name : String
  version : String
  /-- The directory whose history counts, if it is not that of the whole project. -/
  path? : Option String
  deriving DecidableEq, Repr, Inhabited

namespace Module

/-- A module whose display name is its artifact's. -/
def ofId (id : ModuleId) (version : String) : Module :=
  { id, name := id.artifact, version, path? := none }

/-- The directory whose history counts. -/
def directory (m : Module) : String :=
  m.path?.getD "."

end Module

end Versioning
