import FieldSelection.Files
import FieldSelection.Schema.Reader
import FieldSelection.Toml.Document

/-!
Registries in TOML documents.

* `Registry.parse`: the registry that a TOML text denotes, validated.
* `Registry.ofFile`: the registry in a file.
-/

namespace FieldSelection

/-- The registry that a TOML text denotes, validated. -/
def Registry.parse (text : String) : Except SchemaError Registry :=
  match (Toml.parse text).bind (Registry.read? .toml) with
  | some registry => registry.validate.map fun _ => registry
  | none => .error .malformed

/-- The registry in a file, validated. -/
def Registry.ofFile (find : String → Lookup) (path : String) : Except SchemaError Registry :=
  if (find path).exists? then
    match (find path).read with
    | .ok text => Registry.parse text
    | .error reason => .error (.unreadable reason)
  else .error (.fileNotFound path)

end FieldSelection
