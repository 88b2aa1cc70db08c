import FieldSelection.Schema.Registry

/-!
Places: where in the tree a level of a selection stands.

A place knows its shape or not, and its model or not. A name has to satisfy both
sides as far as they are known.

* `Place.hasField`, `Place.isKey`, `Place.fields?`: the fields of a place.
* `Place.enter?`: the place behind a relation.
* `childKey?`: the name right below a path that a dotted key addresses.
-/

namespace FieldSelection

/-! ### Dotted paths -/

/-- A name below a dotted path; the empty path is the root. -/
def joinPath (path name : String) : String :=
  if path = "" then name else path ++ "." ++ name

/-- What follows a text in another one that starts with it. -/
def stripStart : (start text : List Char) → Option (List Char)
  | [], text => some text
  | _ :: _, [] => none
  | s :: start, c :: text => if s = c then stripStart start text else none

/-- What follows the path and a dot in a dotted key; at the root the whole key. -/
def below? (path key : String) : Option String :=
  if path = "" then some key
  else (stripStart (path ++ ".").toList key.toList).map .ofList

/-- The name right below a path that a dotted key addresses, if it addresses
one. -/
def childKey? (path key : String) : Option String :=
  (below? path key).filter fun name => name ≠ "" && '.' ∉ name.toList

/-! ### Places -/

/-- Where a level stands. -/
structure Place where
  /-- The shape of the level, if there is one. -/
  shape : Option Shape
  /-- The model of the level, if there is one. -/
  schema : Option ModelView
  /-- The dotted path that leads here. -/
  path : String
  deriving Repr

namespace Place

/-- The path as it stands in messages. -/
def displayPath (place : Place) : String :=
  if place.path = "" then "<root>" else place.path

/-- Whether the shape has a field of that name, or there is no shape. -/
def shapeHasField (place : Place) (name : String) : Bool :=
  place.shape.all fun shape => (shape.marker? name).isSome

/-- Whether the model has an attribute of that name, or there is no model. -/
def schemaHasField (place : Place) (name : String) : Bool :=
  place.schema.all (·.isAttribute name)

/-- Whether a name is a field here. -/
def hasField (place : Place) (name : String) : Bool :=
  name ≠ "" && place.shapeHasField name && place.schemaHasField name

/-- Whether a name is a key here, by the shape or by the model. -/
def isKey (place : Place) (name : String) : Bool :=
  place.shape.any (fun shape => (shape.marker? name).any Option.isSome) ||
    place.schema.any (·.isKey name)

/-- The fields that can be listed here: those of the shape in its order as far as
the model knows them, or else those of the model. Without either there is
nothing to list them from. -/
def fields? (place : Place) : Option (List String) :=
  match place.shape, place.schema with
  | some shape, _ => some ((Entries.keys shape.fields).filter place.schemaHasField)
  | none, some schema => some schema.attributeNames
  | none, none => none

/-- The relations of the shape in its order. -/
def relations (place : Place) : List String :=
  match place.shape with
  | some shape => Entries.keys shape.relations
  | none => []

/-- The shape behind a relation: `none` if the shape has no such relation, and
`some none` without a shape. -/
def enterShape? (place : Place) (name : String) : Option (Option Shape) :=
  match place.shape with
  | some shape => ((shape.relation? name).bind Node.shape?).map some
  | none => some none

/-- The model behind a relation: `none` if the model has no such association, and
`some none` without a model. -/
def enterSchema? (place : Place) (name : String) : Option (Option ModelView) :=
  match place.schema with
  | some schema => (schema.target? name).map some
  | none => some none

/-- The place behind a relation, if the shape and the model both know it. -/
def enter? (place : Place) (name : String) : Option Place :=
  if name = "" then none
  else
    match place.enterShape? name, place.enterSchema? name with
    | some shape, some schema => some ⟨shape, schema, joinPath place.path name⟩
    | _, _ => none

end Place

end FieldSelection
