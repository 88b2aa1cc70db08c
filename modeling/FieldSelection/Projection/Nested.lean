import FieldSelection.Descriptor.Basic
import FieldSelection.Log
import FieldSelection.Shape.Basic

/-!
Nested projection: data cut down to what a descriptor selects, in the nesting of
the shape.

Nothing fails here: `null`, and data that disagrees with the shape, is absent from
the result, and what stands beside it is not affected. An object without any kept
key is absent as well, while an array may become empty.

* `Node.nested`: the projection of data through a node of a shape.
* `Node.mismatches`: the values met where the shape asks for an array, in the
  order in which the projection meets them.
-/

namespace FieldSelection

/-- The entries of an object; any other value has none. -/
def Json.entries? : Json → Option (List (String × Json))
  | .object entries => some entries
  | _ => none

/-- An object, unless it would be empty. -/
def Json.ofKept (entries : List (String × Json)) : Option Json :=
  if entries.isEmpty then none else some (.object entries)

mutual

/-- The projection of data through a node, if anything is left to show. -/
def Node.nested (data : Json) (descriptor : Descriptor) : Node → Option Json
  | .field _ => none
  | .one shape =>
    data.entries?.bind fun entries => Json.ofKept (Shape.kept entries descriptor shape)
  | .many shape =>
    match data with
    | .array items =>
      some (.array (items.filterMap fun item =>
        item.entries?.bind fun entries => Json.ofKept (Shape.kept entries descriptor shape)))
    | _ => none

/-- What is kept of the entries of an object, in the order of the shape. -/
def Shape.kept (data : List (String × Json)) (descriptor : Descriptor) :
    List (String × Node) → List (String × Json)
  | [] => []
  | (key, node) :: shape =>
    let value? :=
      if node.isField then
        if descriptor.selects key then Entries.lookup? key data else none
      else
        match descriptor.child? key, Entries.lookup? key data with
        | some child, some value => Node.nested value child node
        | _, _ => none
    match value? with
    | some value => (key, value) :: Shape.kept data descriptor shape
    | none => Shape.kept data descriptor shape

end

/-! ### Data that disagrees with the shape -/

mutual

/-- The values other than `null` that stand where a node asks for an array. -/
def Node.mismatches (data : Json) (descriptor : Descriptor) : Node → List Json
  | .field _ => []
  | .one shape =>
    match data.entries? with
    | some entries => Shape.mismatches entries descriptor shape
    | none => []
  | .many shape =>
    match data with
    | .array items =>
      items.flatMap fun item =>
        match item.entries? with
        | some entries => Shape.mismatches entries descriptor shape
        | none => []
    | .null => []
    | value => [value]

/-- The values in an object that stand where the shape asks for an array. -/
def Shape.mismatches (data : List (String × Json)) (descriptor : Descriptor) :
    List (String × Node) → List Json
  | [] => []
  | (key, node) :: shape =>
    (match descriptor.child? key, Entries.lookup? key data with
      | some child, some value => Node.mismatches value child node
      | _, _ => []) ++ Shape.mismatches data descriptor shape

end

/-- The word for the kind of a value. -/
def Json.kindWord : Json → String
  | .null => "null"
  | .bool _ => "a boolean"
  | .number _ => "a number"
  | .string _ => "a string"
  | .array _ => "a sequence"
  | .object _ => "an object"

/-- The event for a value that stands where the shape asks for an array. -/
def Json.mismatchEvent (value : Json) : Event :=
  ⟨.trace,
    [("message", "expected a sequence for a multi-valued shape, got " ++ value.kindWord)]⟩

end FieldSelection
