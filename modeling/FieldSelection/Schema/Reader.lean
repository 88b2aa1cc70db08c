import FieldSelection.Record
import FieldSelection.Schema.Registry

/-!
Registries as data.

* `Registry.read`: the registry that a value denotes in a data format. Unknown
  fields are ignored; attributes, associations, keys and kinds may be absent.
* `Registry.toJson`: a registry as a JSON object; a key is left out where there is
  none.
-/

namespace FieldSelection

/-- The key role of an attribute, which may be absent. -/
def KeyRole.read? (convention : Convention) : Option Json → Option (Option KeyRole)
  | none => some none
  | some value =>
    if convention.hasNull && value = .null then some none
    else
      match convention.word? value with
      | some "primary" => some (some .primary)
      | some "foreign" => some (some .foreign)
      | _ => none

/-- The cardinality of an association; an absent one is `one`. -/
def Cardinality.read? (convention : Convention) : Option Json → Option Cardinality
  | none => some .one
  | some value =>
    match convention.word? value with
    | some "one" => some .one
    | some "many" => some .many
    | _ => none

/-- The attribute that a value denotes. -/
def Attribute.read? (convention : Convention) (value : Json) : Option Attribute :=
  match convention.fields? ["name", "key"] value with
  | some [name, key] => do
    some ⟨← string? name, ← KeyRole.read? convention key⟩
  | _ => none

/-- The association that a value denotes. -/
def Association.read? (convention : Convention) (value : Json) : Option Association :=
  match convention.fields? ["name", "target", "kind"] value with
  | some [name, target, kind] => do
    some ⟨← string? name, ← string? target, ← Cardinality.read? convention kind⟩
  | _ => none

/-- The model that a value denotes. -/
def Model.read? (convention : Convention) (value : Json) : Option Model :=
  match convention.fields? ["name", "attributes", "associations"] value with
  | some [name, attributes, associations] => do
    some
      ⟨← string? name, ← list? (Attribute.read? convention) attributes,
        ← list? (Association.read? convention) associations⟩
  | _ => none

/-- The registry that a value denotes. -/
def Registry.read? (convention : Convention) (value : Json) : Option Registry :=
  match convention.fields? ["models"] value with
  | some [models] => do some ⟨← list? (Model.read? convention) models⟩
  | _ => none

/-! ### Writing -/

/-- An attribute as JSON. -/
def Attribute.toJson (a : Attribute) : Json :=
  .object
    (("name", .string a.name) ::
      match a.key with
      | some role => [("key", .string role.word)]
      | none => [])

/-- An association as JSON. -/
def Association.toJson (association : Association) : Json :=
  .object
    [ ("name", .string association.name), ("target", .string association.target),
      ("kind", .string association.kind.word) ]

/-- A model as JSON. -/
def Model.toJson (model : Model) : Json :=
  .object
    [ ("name", .string model.name),
      ("attributes", .array (model.attributes.map Attribute.toJson)),
      ("associations", .array (model.associations.map Association.toJson)) ]

/-- A registry as JSON. -/
def Registry.toJson (registry : Registry) : Json :=
  .object [("models", .array (registry.models.map Model.toJson))]

end FieldSelection
