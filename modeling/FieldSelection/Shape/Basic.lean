import FieldSelection.Json.Basic

/-!
Shapes: templates of the data that may be selected.

A shape says which keys of an object are plain fields, which are relations, and
whether a relation leads to one object or to many. Its keys stand in the order in
which they were declared.

* `Node`: a field or a relation; a root is a node too.
* `Shape`: the entries of an object.
* `Shape.insert`: declares an entry; an entry of the same name is replaced where
  it stands.
-/

namespace FieldSelection

/-- The key role of a field. -/
inductive KeyRole where
  | primary
  | foreign
  deriving DecidableEq, Repr

/-- One node of a shape. -/
inductive Node where
  /-- A plain field, with its key role if it is a key. -/
  | field (key : Option KeyRole)
  /-- A relation to one object. -/
  | one (shape : List (String × Node))
  /-- A relation to many objects. -/
  | many (shape : List (String × Node))
  deriving Repr, Inhabited

/-- The template of an object: its keys in order, each a field or a relation. -/
abbrev Shape := List (String × Node)

namespace Node

/-- Whether a node is a field. -/
def isField : Node → Bool
  | .field _ => true
  | _ => false

/-- Whether a node is a relation. -/
def isRelation (node : Node) : Bool :=
  !node.isField

/-- The template behind a relation, to one object or to many. -/
def shape? : Node → Option Shape
  | .field _ => none
  | .one shape | .many shape => some shape

/-- The key role of a field; `none` for a relation. -/
def marker? : Node → Option (Option KeyRole)
  | .field key => some key
  | _ => none

end Node

namespace Shape

/-! ### Declaring entries -/

/-- Declare an entry: in place of the entry of that name, or else at the end. -/
def insert (shape : Shape) (name : String) (node : Node) : Shape :=
  Entries.put name node shape

/-- Declare a plain field. -/
def field (shape : Shape) (name : String) : Shape :=
  shape.insert name (.field none)

/-- Declare a primary key. -/
def primaryKey (shape : Shape) (name : String) : Shape :=
  shape.insert name (.field (some .primary))

/-- Declare a foreign key. -/
def foreignKey (shape : Shape) (name : String) : Shape :=
  shape.insert name (.field (some .foreign))

/-- Declare a relation to one object. -/
def one (shape : Shape) (name : String) (target : Shape) : Shape :=
  shape.insert name (.one target)

/-- Declare a relation to many objects. -/
def many (shape : Shape) (name : String) (target : Shape) : Shape :=
  shape.insert name (.many target)

/-! ### Looking entries up -/

/-- The node under a name. -/
def get? (shape : Shape) (name : String) : Option Node :=
  Entries.lookup? name shape

/-- The key role of the field under a name, if there is a field. -/
def marker? (shape : Shape) (name : String) : Option (Option KeyRole) :=
  (shape.get? name).bind Node.marker?

/-- The relation under a name, if there is one. -/
def relation? (shape : Shape) (name : String) : Option Node :=
  (shape.get? name).filter Node.isRelation

/-- The fields in order, with their key roles. -/
def fields (shape : Shape) : List (String × Option KeyRole) :=
  shape.filterMap fun (name, node) => node.marker?.map (name, ·)

/-- The relations in order. -/
def relations (shape : Shape) : List (String × Node) :=
  shape.filter fun (_, node) => node.isRelation

end Shape

end FieldSelection
