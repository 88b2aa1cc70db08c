import FieldSelection.Shape.Basic

/-!
Schemas: models that refer to each other by name.

* `Registry`: a list of models, each with attributes and associations in order.
* `Registry.validate`: no two models share a name, and every association leads to
  a model; repeated names are reported before dangling targets.
* `ModelView`: one model of a registry, as a selection is checked against it.
-/

namespace FieldSelection

/-- An attribute of a model, with its key role if it is a key. -/
structure Attribute where
  name : String
  key : Option KeyRole := none
  deriving DecidableEq, Repr

/-- Whether an association leads to one object or to many. -/
inductive Cardinality where
  | one
  | many
  deriving DecidableEq, Repr

/-- The word for a cardinality. -/
def Cardinality.word : Cardinality → String
  | .one => "one"
  | .many => "many"

/-- The word for a key role. -/
def KeyRole.word : KeyRole → String
  | .primary => "primary"
  | .foreign => "foreign"

/-- A named association to a model. -/
structure Association where
  name : String
  target : String
  kind : Cardinality := .one
  deriving DecidableEq, Repr

/-- A model: attributes and associations in order. -/
structure Model where
  name : String
  attributes : List Attribute := []
  associations : List Association := []
  deriving DecidableEq, Repr

namespace Model

/-- The attribute of that name, the first one if there are several. -/
def attribute? (model : Model) (name : String) : Option Attribute :=
  model.attributes.find? (·.name = name)

/-- The association of that name, the first one if there are several. -/
def association? (model : Model) (name : String) : Option Association :=
  model.associations.find? (·.name = name)

/-- Declare an attribute. -/
def withAttribute (model : Model) (name : String) (key : Option KeyRole) : Model :=
  { model with attributes := model.attributes ++ [⟨name, key⟩] }

/-- Declare an association. -/
def withAssociation (model : Model) (name target : String) (kind : Cardinality) : Model :=
  { model with associations := model.associations ++ [⟨name, target, kind⟩] }

end Model

/-- Models that refer to each other by name. -/
structure Registry where
  models : List Model := []
  deriving DecidableEq, Repr

/-- Why a registry cannot be used. -/
inductive SchemaError where
  /-- The file is not there. -/
  | fileNotFound (path : String)
  /-- The file cannot be read, for the reason given. -/
  | unreadable (reason : String)
  /-- The text is malformed or does not fit. -/
  | malformed
  /-- There is no model of that name. -/
  | unknownModel (name : String)
  /-- Two models share that name. -/
  | duplicateModel (name : String)
  /-- An association leads to a model that is not there. -/
  | unknownTarget (model association target : String)
  deriving DecidableEq, Repr

/-- The message of an error. -/
def SchemaError.message : SchemaError → String
  | .fileNotFound path => "Schema file not found: " ++ path
  | .unreadable reason => "Failed to read schema file: " ++ reason
  | .malformed => "Failed to parse schema file: not a TOML document of models"
  | .unknownModel name => "Model not found: " ++ name
  | .duplicateModel name => "Duplicate model name: " ++ name
  | .unknownTarget model association target =>
    "Association '" ++ model ++ "." ++ association ++ "' targets undefined model '" ++
      target ++ "'"

namespace Registry

/-- The model of that name, the first one if there are several. -/
def model? (registry : Registry) (name : String) : Option Model :=
  registry.models.find? (·.name = name)

/-- The first name that a model shares with one before it, where `seen` holds the
names so far. -/
def firstDuplicate (seen : List String) : List Model → Option String
  | [] => none
  | model :: models =>
    if model.name ∈ seen then some model.name
    else firstDuplicate (model.name :: seen) models

/-- The associations of all models in order, each with the name of its model. -/
def associations (registry : Registry) : List (String × Association) :=
  registry.models.flatMap fun model => model.associations.map (model.name, ·)

/-- Check that names are unique and that every association leads to a model. -/
def validate (registry : Registry) : Except SchemaError Unit :=
  match firstDuplicate [] registry.models with
  | some name => .error (.duplicateModel name)
  | none =>
    let names := registry.models.map (·.name)
    match registry.associations.find? fun (_, association) => association.target ∉ names with
    | some (model, association) =>
      .error (.unknownTarget model association.name association.target)
    | none => .ok ()

end Registry

/-! ### A model and its surroundings -/

/-- One model of a registry, as a selection is checked against it. With
`namesOnly` it tells attributes and follows associations, but it knows no keys and
lists no associations. -/
structure ModelView where
  registry : Registry
  model : Model
  namesOnly : Bool := false
  deriving DecidableEq, Repr

/-- The view of the model of that name. -/
def Registry.view? (registry : Registry) (name : String) : Option ModelView :=
  (registry.model? name).map fun model => { registry, model }

/-- The view of the model of that name, which has to be there. -/
def Registry.require (registry : Registry) (name : String) :
    Except SchemaError ModelView :=
  match registry.view? name with
  | some view => .ok view
  | none => .error (.unknownModel name)

namespace ModelView

/-- Whether the model has an attribute of that name. -/
def isAttribute (view : ModelView) (name : String) : Bool :=
  (view.model.attribute? name).isSome

/-- The attributes of the model in order. -/
def attributeNames (view : ModelView) : List String :=
  view.model.attributes.map (·.name)

/-- Whether an attribute of that name is a key. -/
def isKey (view : ModelView) (name : String) : Bool :=
  !view.namesOnly && (view.model.attribute? name).any (·.key.isSome)

/-- The view of the model that an association leads to. -/
def target? (view : ModelView) (name : String) : Option ModelView := do
  let association ← view.model.association? name
  let model ← view.registry.model? association.target
  some { view with model }

/-- The associations of the model in order. -/
def associationNames (view : ModelView) : List String :=
  if view.namesOnly then [] else view.model.associations.map (·.name)

end ModelView

end FieldSelection
