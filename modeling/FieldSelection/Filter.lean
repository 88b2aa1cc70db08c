import FieldSelection.Json.Basic
import FieldSelection.Text.Separated

/-!
Filter values: what a selected attribute is compared with.

* `FilterValue.ofQuery`: the filter that a value of a query denotes. A string
  with commas is a list of its parts.
* `FilterValue.toJson`, `FilterValue.ofJson`: a list of values is written as an
  array, a single value as it is.
-/

namespace FieldSelection

/-- A filter value: one value, or any of several. -/
inductive FilterValue where
  | many (values : List Json)
  | one (value : Json)
  deriving DecidableEq, Repr

namespace FilterValue

/-- The filter that a value of a query denotes. -/
def ofQuery : Json → FilterValue
  | .string s =>
    if ',' ∈ s.toList then
      .many ((Text.split ',' s.toList).map fun part => .string (.ofList part))
    else .one (.string s)
  | .array values => .many values
  | value => .one value

/-- A filter value as JSON. -/
def toJson : FilterValue → Json
  | .many values => .array values
  | .one value => value

/-- The filter value that is written as a JSON value. -/
def ofJson : Json → FilterValue
  | .array values => .many values
  | value => .one value

/-- Whatever a filter value is read from is what it is written as. -/
theorem toJson_ofJson (value : Json) : (ofJson value).toJson = value := by
  cases value <;> rfl

end FilterValue

end FieldSelection
