import Versioning.Text.Blank
import Versioning.Unicode.Age
import Versioning.Unicode.Segment

/-!
# Properties by name

A pattern may ask for the characters with a property by the name of the property. A general
category, a binary property and a script are named alone; a script and the values of the other
properties are named together with the property, as in `gcb=Extend`. Names are compared without
regard to capitals, spaces, hyphens and underscores.

* `Property.holds` tells which characters have a property;
* `Property.ofText?` is the property that a text names; if it names a set of characters, there is
  one with this name (`Property.exists_set_of_ofText?`).
-/

namespace Versioning.Pattern

/-- The families of sets of characters that are told apart by names. -/
inductive Family where
  | binary | script | scriptExtension | age | graphemeBreak | wordBreak | sentenceBreak
  deriving DecidableEq, Repr

namespace Family

/-- The sets of a family. -/
def sets : Family → List Unicode.NamedSet
  | binary => Unicode.binaryProperties
  | script => Unicode.scripts
  | scriptExtension => Unicode.scriptExtensions
  | age => Unicode.ages
  | graphemeBreak => Unicode.graphemeBreaks
  | wordBreak => Unicode.wordBreaks
  | sentenceBreak => Unicode.sentenceBreaks

/-- The set of a family with a name. -/
def find? (family : Family) (name : String) : Option Unicode.NamedSet :=
  family.sets.find? (·.names.contains name)

/-- The family that is named together with the name of one of its sets. Binary properties are
    named alone. -/
def ofKey? (key : String) : Option Family :=
  match key with
  | "sc" | "script" => some script
  | "scx" | "scriptextensions" => some scriptExtension
  | "age" => some age
  | "gcb" | "graphemeclusterbreak" => some graphemeBreak
  | "wb" | "wordbreak" => some wordBreak
  | "sb" | "sentencebreak" => some sentenceBreak
  | _ => none

end Family

/-- A property of characters. -/
inductive Property where
  | digit | blank | word | ascii | any | assigned | casedLetter
  | category (c : Unicode.Category)
  | group (letter : Char)
  | member (family : Family) (name : String)
  deriving DecidableEq, Repr

namespace Property

/-- Whether a character has the property. -/
def holds : Property → Char → Bool
  | digit, c => Unicode.isDecimalDigit c
  | blank, c => Text.isBlankChar c
  | word, c => Unicode.isWordCharacter c
  | ascii, c => c.toNat < 128
  | any, _ => true
  | assigned, c => Unicode.Category.of c != .unassigned
  | casedLetter, c =>
    [.uppercaseLetter, .lowercaseLetter, .titlecaseLetter].contains (Unicode.Category.of c)
  | category k, c => Unicode.Category.of c == k
  | group letter, c => (Unicode.Category.of c).group == letter
  | member family name, c => (family.find? name).any (·.has c)

/-- The form in which names are compared. The word `is` at the beginning of a name is left out,
    except that `isc` stays what it is: it names another property than `c`. -/
def keyOf (name : List Char) : String :=
  let asserted := ['i', 's'].isPrefixOf (name.map Char.toLower)
  let kept := (if asserted then name.drop 2 else name).filter fun c =>
    c.toNat < 128 && c != ' ' && c != '_' && c != '-'
  if asserted && kept.map Char.toLower == ['c'] then "isc"
  else String.ofList (kept.map Char.toLower)

/-- The names of the groups of categories and of the categories, other than their letters, and of
    what else may be named in place of a category. -/
def categoryNames : List (String × Property) :=
  [("any", any), ("assigned", assigned), ("ascii", ascii), ("lc", casedLetter),
   ("casedletter", casedLetter), ("letter", group 'L'), ("mark", group 'M'),
   ("combiningmark", group 'M'), ("number", group 'N'), ("punctuation", group 'P'),
   ("punct", group 'P'), ("symbol", group 'S'), ("separator", group 'Z'), ("other", group 'C'),
   ("uppercaseletter", category .uppercaseLetter), ("lowercaseletter", category .lowercaseLetter),
   ("titlecaseletter", category .titlecaseLetter), ("modifierletter", category .modifierLetter),
   ("otherletter", category .otherLetter), ("nonspacingmark", category .nonspacingMark),
   ("spacingmark", category .spacingMark), ("enclosingmark", category .enclosingMark),
   ("decimalnumber", category .decimalNumber), ("digit", category .decimalNumber),
   ("letternumber", category .letterNumber), ("othernumber", category .otherNumber),
   ("connectorpunctuation", category .connectorPunctuation),
   ("dashpunctuation", category .dashPunctuation),
   ("openpunctuation", category .openPunctuation),
   ("closepunctuation", category .closePunctuation),
   ("initialpunctuation", category .initialPunctuation),
   ("finalpunctuation", category .finalPunctuation),
   ("otherpunctuation", category .otherPunctuation), ("mathsymbol", category .mathSymbol),
   ("currencysymbol", category .currencySymbol), ("modifiersymbol", category .modifierSymbol),
   ("othersymbol", category .otherSymbol), ("spaceseparator", category .spaceSeparator),
   ("lineseparator", category .lineSeparator),
   ("paragraphseparator", category .paragraphSeparator), ("control", category .control),
   ("cntrl", category .control), ("format", category .format),
   ("privateuse", category .privateUse), ("unassigned", category .unassigned)]

/-- The group of categories with a letter, or the category with two letters. That of surrogates
    cannot be asked for, since no character belongs to it. -/
def ofAbbreviation? : List Char → Option Property
  | [a] => if "lmnpszc".toList.contains a then some (group a.toUpper) else none
  | [a, b] =>
    ((Unicode.Category.ofLetters? a.toUpper b).filter (· != .surrogate)).map category
  | _ => none

/-- The property that is named like a general category. -/
def ofCategory? (key : String) : Option Property :=
  (categoryNames.lookup key).or (ofAbbreviation? key.toList)

/-- The set of a family with a name, as a property. -/
def member? (family : Family) (name : String) : Option Property :=
  (family.find? name).map fun _ => member family name

/-- The property that is named alone. -/
def ofName? (key : String) : Option Property :=
  (member? .binary key).or ((ofCategory? key).or (member? .script key))

/-- The property that is named by the key of a family and the key of one of its sets. -/
def ofValue? (key value : String) : Option Property :=
  if key = "gc" || key = "generalcategory" then ofCategory? value
  else (Family.ofKey? key).bind (member? · value)

/-- What is before and behind the first place where `mark` stands. -/
def splitAt? (mark : List Char) : List Char → Option (List Char × List Char)
  | [] => none
  | c :: rest =>
    if mark.isPrefixOf (c :: rest) then some ([], (c :: rest).drop mark.length)
    else (splitAt? mark rest).map fun (before, behind) => (c :: before, behind)

/-- The property that a text names. A sign of inequality is read like one of equality. -/
def ofText? (text : List Char) : Option Property :=
  match [['!', '='], [':'], ['=']].findSome? (splitAt? · text) with
  | some (key, value) => ofValue? (keyOf key) (keyOf value)
  | none => ofName? (keyOf text)

/-! ## What is named -/

variable {family : Family} {name : String}

theorem ofAbbreviation?_ne_member (key : List Char) :
    ofAbbreviation? key ≠ some (member family name) := by
  intro h
  rw [ofAbbreviation?.eq_def] at h
  split at h
  · split at h <;> cases h
  · obtain ⟨category, -, hcategory⟩ := Option.map_eq_some_iff.1 h
    cases hcategory
  · cases h

theorem ofCategory?_ne_member (key : String) : ofCategory? key ≠ some (member family name) := by
  have hnames : categoryNames.any (fun e => e.2 matches member ..) = false := by decide
  intro h
  obtain hlookup | ⟨-, hletters⟩ := Option.or_eq_some_iff.1 h
  · obtain ⟨before, behind, hsplit, -⟩ := List.lookup_eq_some_iff.1 hlookup
    have hmem : (key, member family name) ∈ categoryNames := by simp [hsplit]
    exact List.any_eq_false.1 hnames _ hmem rfl
  · exact ofAbbreviation?_ne_member _ hletters

theorem exists_of_member?_eq_some {asked : Family} {key : String}
    (h : member? asked key = some (member family name)) : ∃ set, family.find? name = some set := by
  obtain ⟨set, hset, heq⟩ := Option.map_eq_some_iff.1 h
  cases heq
  exact ⟨set, hset⟩

theorem exists_of_ofName?_eq_some {key : String} (h : ofName? key = some (member family name)) :
    ∃ set, family.find? name = some set := by
  obtain hbinary | ⟨-, hrest⟩ := Option.or_eq_some_iff.1 h
  · exact exists_of_member?_eq_some hbinary
  · obtain hcategory | ⟨-, hscript⟩ := Option.or_eq_some_iff.1 hrest
    · exact absurd hcategory (ofCategory?_ne_member key)
    · exact exists_of_member?_eq_some hscript

theorem exists_of_ofValue?_eq_some {key value : String}
    (h : ofValue? key value = some (member family name)) : ∃ set, family.find? name = some set := by
  rw [ofValue?] at h
  split at h
  · exact absurd h (ofCategory?_ne_member value)
  · obtain ⟨asked, -, hvalue⟩ := Option.bind_eq_some_iff.1 h
    exact exists_of_member?_eq_some hvalue

/-- A set of characters that a text names is one of its family, and the characters with the
    property are those of the set. -/
theorem exists_set_of_ofText? {text : List Char} (h : ofText? text = some (member family name)) :
    ∃ set ∈ family.sets, name ∈ set.names ∧ (member family name).holds = set.has := by
  obtain ⟨set, hset⟩ : ∃ set, family.find? name = some set := by
    rw [ofText?] at h
    split at h
    · exact exists_of_ofValue?_eq_some h
    · exact exists_of_ofName?_eq_some h
  refine ⟨set, List.mem_of_find?_eq_some hset, ?_, ?_⟩
  · simpa using List.find?_some hset
  · funext c
    rw [holds, hset, Option.any_some]

end Property

end Versioning.Pattern
