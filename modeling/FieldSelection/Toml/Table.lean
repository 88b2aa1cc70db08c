import FieldSelection.Json.Basic

/-!
Tables of a TOML document while it is read.

A table is defined by a header, by dotted keys, or only implied by a longer
header. A table can be defined once, and what one way defined the others may not
extend.

* `Toml.openTable`, `Toml.openElement`: what the headers `[a.b]` and `[[a.b]]` do.
* `Toml.insert`: what `a.b = value` does.
* `Toml.toJson`: the tables as a JSON value.
-/

namespace FieldSelection

namespace Toml

/-- How a table came to be. -/
inductive Origin where
  /-- A longer header implies it. -/
  | implied
  /-- Dotted keys define it. -/
  | dotted
  /-- A header defines it. -/
  | header
  deriving DecidableEq, Repr

/-- What stands under a key. -/
inductive Item where
  /-- A finished value. -/
  | value (value : Json)
  /-- A table. -/
  | table (origin : Origin) (entries : List (String × Item))
  /-- An array of tables, the last one first. -/
  | tables (elements : List (List (String × Item)))

/-- The entries of a table. -/
abbrev Table := List (String × Item)

/-! ### Headers -/

/-- Change the table at the path of a header. Tables on the way are implied, and
of an array of tables the last element is meant. -/
def descend (change : Table → Option Table) : List String → Table → Option Table
  | [], table => change table
  | key :: path, table =>
    match Entries.lookup? key table with
    | none => (descend change path []).map fun sub => Entries.put key (.table .implied sub) table
    | some (.table origin sub) =>
      (descend change path sub).map fun sub => Entries.put key (.table origin sub) table
    | some (.tables (last :: before)) =>
      (descend change path last).map fun last => Entries.put key (.tables (last :: before)) table
    | some _ => none

/-- Define a table under a key: a new one, or one that was only implied. -/
def defineTable (key : String) (table : Table) : Option Table :=
  match Entries.lookup? key table with
  | none => some (Entries.put key (.table .header []) table)
  | some (.table .implied sub) => some (Entries.put key (.table .header sub) table)
  | some _ => none

/-- Add an element to the array of tables under a key. -/
def defineElement (key : String) (table : Table) : Option Table :=
  match Entries.lookup? key table with
  | none => some (Entries.put key (.tables [[]]) table)
  | some (.tables elements) => some (Entries.put key (.tables ([] :: elements)) table)
  | some _ => none

/-- What a header with the path `path` and the last key `key` does; `isElement`
tells whether it has two brackets. -/
def openHeader (isElement : Bool) (path : List String) (key : String) (table : Table) :
    Option Table :=
  descend (if isElement then defineElement key else defineTable key) path table

/-! ### Keys -/

/-- Put a value under a key that is new. -/
def insertNew (key : String) (value : Json) (table : Table) : Option Table :=
  match Entries.lookup? key table with
  | none => some (Entries.put key (.value value) table)
  | some _ => none

/-- Put a value under the key at the end of a dotted path that led into a table
already. That table has to be defined by dotted keys. -/
def insertBelow (value : Json) (key : String) : Origin → List String → Table → Option Table
  | origin, [], table => if origin = .dotted then insertNew key value table else none
  | _, part :: path, table =>
    match Entries.lookup? part table with
    | none =>
      (insertBelow value key .dotted path []).map fun sub =>
        Entries.put part (.table .dotted sub) table
    | some (.table .header _) | some (.value _) | some (.tables []) => none
    | some (.table origin sub) =>
      (insertBelow value key origin path sub).map fun sub =>
        Entries.put part (.table origin sub) table
    | some (.tables (last :: before)) =>
      (insertBelow value key .header path last).map fun last =>
        Entries.put part (.tables (last :: before)) table

/-- Put a value under a dotted key with the path `path` and the last key `key`. -/
def insert (path : List String) (key : String) (value : Json) (table : Table) : Option Table :=
  match path with
  | [] => insertNew key value table
  | path => insertBelow value key .implied path table

/-! ### Finished tables -/

mutual

/-- An item as JSON. -/
def Item.toJson : Item → Json
  | .value value => value
  | .table _ entries => .object (tableToJson entries)
  | .tables elements => .array (tablesToJson elements).reverse

/-- The entries of a table as JSON. -/
def tableToJson : List (String × Item) → List (String × Json)
  | [] => []
  | (key, item) :: entries => (key, item.toJson) :: tableToJson entries

/-- Some tables as JSON. -/
def tablesToJson : List (List (String × Item)) → List Json
  | [] => []
  | table :: tables => .object (tableToJson table) :: tablesToJson tables

end

end Toml

end FieldSelection
