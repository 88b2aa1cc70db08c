import FieldSelection.Json.Printer
import FieldSelection.Json.Reader
import FieldSelection.Shape.Basic

/-!
Reading shapes from JSON.

An object is a relation to one object, and an array that holds one object and
nothing else is a relation to many. `true` and the word `field` declare a plain
field; `pk` and `primary`, `fk` and `foreign` declare a key.

* `Node.ofJson`: the root that a value denotes.
* `ShapeError`: why a value denotes none. The first offending entry in document
  order is reported.
-/

namespace FieldSelection

/-- Why no shape could be read. -/
inductive ShapeError where
  /-- The text is no JSON text. -/
  | notJson
  /-- The root is neither an object nor an array with just an object in it. -/
  | invalidRoot
  /-- An array under a key does not hold just one object. -/
  | invalidMany (key : String)
  /-- A value under a key is no marker of a field. -/
  | invalidMarker (key : String) (value : Json)
  deriving DecidableEq, Repr

/-- The message of an error. -/
def ShapeError.message : ShapeError → String
  | .notJson => "Failed to parse shape JSON: not a JSON text"
  | .invalidRoot => "Shape root must be an object or a one-element array holding an object"
  | .invalidMany key =>
    "Multi-valued relation '" ++ key ++ "' must hold exactly one object"
  | .invalidMarker key value =>
    "Invalid field marker for '" ++ key ++ "': " ++ value.compact

/-- The key role that a word declares, in any mixture of upper and lower case. -/
def marker? (word : String) : Option (Option KeyRole) :=
  let word := String.ofList (word.toList.map Char.toLower)
  if word = "field" then some none
  else if word = "pk" ∨ word = "primary" then some (some .primary)
  else if word = "fk" ∨ word = "foreign" then some (some .foreign)
  else none

mutual

/-- The node that the value under a key declares. -/
def Node.ofEntry (key : String) : Json → Except ShapeError Node
  | .bool true => .ok (.field none)
  | .string word =>
    match FieldSelection.marker? word with
    | some role => .ok (.field role)
    | none => .error (.invalidMarker key (.string word))
  | .object entries => (Shape.ofEntries entries).map .one
  | .array [.object entries] => (Shape.ofEntries entries).map .many
  | .array _ => .error (.invalidMany key)
  | value => .error (.invalidMarker key value)

/-- The shape that the entries of an object declare. -/
def Shape.ofEntries : List (String × Json) → Except ShapeError Shape
  | [] => .ok []
  | (key, value) :: entries => do
    let node ← Node.ofEntry key value
    let shape ← Shape.ofEntries entries
    .ok ((key, node) :: shape)

end

/-- The root that a value denotes. -/
def Node.ofJson : Json → Except ShapeError Node
  | .object entries => (Shape.ofEntries entries).map .one
  | .array [.object entries] => (Shape.ofEntries entries).map .many
  | _ => .error .invalidRoot

/-- The root that a JSON text denotes. -/
def Node.parse (text : String) : Except ShapeError Node :=
  match Json.parse text with
  | some value => Node.ofJson value
  | none => .error .notJson

end FieldSelection
