import FieldSelection.Text.Blank
import FieldSelection.Text.Separated

/-!
Ordering texts.

`-author.name,title` asks for descending author names, then for titles. Fields
are passed on as written; nothing is checked against a shape or a schema.

* `OrderEntry.parse`: one ordering field.
* `parseOrder`: a list of ordering fields with commas between them.
-/

namespace FieldSelection

open FieldSelection.Text

/-- The direction of a sort. -/
inductive Direction where
  | ascending
  | descending
  deriving DecidableEq, Repr

/-- The word for a direction. -/
def Direction.word : Direction → String
  | .ascending => "ASC"
  | .descending => "DESC"

/-- One entry of an ordering: the dotted path of a field and a direction. -/
structure OrderEntry where
  path : List String
  direction : Direction
  deriving DecidableEq, Repr

/-- The path followed by the word for the direction. -/
def OrderEntry.segments (entry : OrderEntry) : List String :=
  entry.path ++ [entry.direction.word]

/-- The path that a text with dots denotes. -/
def dottedPath (text : List Char) : List String :=
  (split '.' text).map String.ofList

/-- Read one ordering field; one leading `-` sorts descending. -/
def OrderEntry.parse : List Char → OrderEntry
  | '-' :: field => ⟨dottedPath field, .descending⟩
  | field => ⟨dottedPath field, .ascending⟩

/-- Read the ordering fields of a text in order; blank ones are skipped. -/
def parseOrder (text : List Char) : List OrderEntry :=
  (((split ',' text).map trim).filter (· ≠ [])).map OrderEntry.parse

end FieldSelection
