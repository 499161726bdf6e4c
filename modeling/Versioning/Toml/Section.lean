import Versioning.Toml.Value
import Versioning.Toml.Text

/-!
# Tables under construction

While a document is read, its tables are *sections*: a key of a section holds a
finished value, a section, or a sequence of sections. A section remembers how
it came about, because that decides who may still add to it: it is *implicit*
if it was only needed on the way to another one, and *dotted* if that way was a
key with dots and not a header.

* `Section.alter` changes the section at the end of a path, making the ones on the way;
* `Section.put` enters a value under a key with dots;
* `Section.openTable` and `Section.openElement` do what headers ask for;
* `Section.toTable` is the finished table.
-/

namespace Versioning.Toml

mutual

/-- What a key of a section holds. -/
inductive Item where
  | value (v : Value)
  | section (s : Section)
  | sections (items : List Section)

/-- A table under construction. -/
inductive Section where
  | mk (entries : List (String × Item)) (implicit dotted : Bool)

end

namespace Section

/-- The entries of a section in the order of the document. -/
def entries : Section → List (String × Item)
  | mk entries _ _ => entries

/-- Whether the section was only needed on the way to another one. -/
def implicit : Section → Bool
  | mk _ implicit _ => implicit

/-- Whether the section was made by a key with dots. -/
def dotted : Section → Bool
  | mk _ _ dotted => dotted

/-- A section as a header begins it. -/
def fresh : Section :=
  mk [] false false

/-- The section with its entries under a header of its own. -/
def explicit (s : Section) : Section :=
  mk s.entries false false

/-- What a key holds. -/
def get? (s : Section) (key : String) : Option Item :=
  s.entries.lookup key

/-- The entries with something else under a key. -/
def replaceEntry (key : String) (item : Item) : List (String × Item) → List (String × Item)
  | [] => [(key, item)]
  | (k, old) :: rest =>
    if k = key then (k, item) :: rest else (k, old) :: replaceEntry key item rest

/-- Puts something under a key, in the place of what the key held before. -/
def set (s : Section) (key : String) (item : Item) : Section :=
  mk (replaceEntry key item s.entries) s.implicit s.dotted

/-- Changes the section at the end of a path. Sections that are missing on the way are made; a
    sequence of sections stands for its last one. Only implicit sections may be entered
    by a key with dots. -/
def alter (dotted : Bool) (f : Section → Except Fault Section) :
    List String → Section → Except Fault Section
  | [], s => f s
  | key :: path, s =>
    match s.get? key with
    | none => do
      let child ← alter dotted f path (mk [] true dotted)
      return s.set key (.section child)
    | some (.value _) => .error .notATable
    | some (.sections items) =>
      match items.getLast? with
      | none => .error .notATable
      | some last => do
        let child ← alter dotted f path last
        return s.set key (.sections (items.dropLast ++ [child]))
    | some (.section child) => do
      if dotted && !child.implicit then .error .duplicateKey
      let child ← alter dotted f path child
      return s.set key (.section child)

/-- Enters a value under a key with dots. Sections made by a header take no values from keys
    with dots, and a key takes one value. -/
def put (s : Section) (path : List String) (key : String) (v : Value) : Except Fault Section :=
  s.alter true (fun target => do
    if target.dotted == path.isEmpty then .error .duplicateKey
    match target.get? key with
    | some _ => .error .duplicateKey
    | none => return target.set key (.value v)) path

/-- Begins a table by a header: a new one, or one that was only needed on the way to others. -/
def openTable (root : Section) (path : List String) (key : String) : Except Fault Section :=
  root.alter false (fun parent =>
    match parent.get? key with
    | none => .ok (parent.set key (.section fresh))
    | some (.section child) =>
      if child.implicit && !child.dotted then .ok (parent.set key (.section child.explicit))
      else .error .duplicateKey
    | some _ => .error .duplicateKey) path

/-- Adds a table to a sequence of tables. -/
def openElement (root : Section) (path : List String) (key : String) : Except Fault Section :=
  root.alter false (fun parent =>
    match parent.get? key with
    | none => .ok (parent.set key (.sections [fresh]))
    | some (.sections items) => .ok (parent.set key (.sections (items ++ [fresh])))
    | some _ => .error .duplicateKey) path

end Section

mutual

/-- The finished value under a key. -/
def Item.toValue : Item → Value
  | .value v => v
  | .section s => .table s.toTable
  | .sections items => .array (tablesOf items)

/-- The finished table. -/
def Section.toTable : Section → Table
  | .mk entries _ _ => entriesOf entries

/-- The finished entries. -/
def entriesOf : List (String × Item) → Table
  | [] => []
  | (key, item) :: rest => (key, item.toValue) :: entriesOf rest

/-- The finished tables of a sequence. -/
def tablesOf : List Section → List Value
  | [] => []
  | s :: rest => .table s.toTable :: tablesOf rest

end

end Versioning.Toml
