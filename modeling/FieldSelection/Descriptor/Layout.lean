import FieldSelection.Descriptor.Basic
import FieldSelection.Record

/-!
Descriptors as JSON.

The attributes are always there; every other part is left out when it is empty.

* `Descriptor.toJson`: how a descriptor is written.
* `Descriptor.ofJson`: the descriptor that a JSON object of that layout denotes.
-/

namespace FieldSelection

namespace Descriptor

/-! ### Writing -/

/-- A part that is left out under a condition. -/
def part (absent : Bool) (key : String) (value : Json) : List (String × Json) :=
  if absent then [] else [(key, value)]

/-- A part that is left out when it is absent. -/
def optional (key : String) : Option Json → List (String × Json)
  | none => []
  | some value => [(key, value)]

mutual

/-- A descriptor as JSON. -/
def toJson : Descriptor → Json
  | { attributes, allAttributes, excluded, filters, required, includes, includeAll,
      association, limit, offset, order, col, distinct } =>
    .object
      (("attributes", .strings attributes) ::
        (part (!allAttributes) "allAttributes" (.bool true) ++
        part excluded.isEmpty "exclude" (.strings excluded) ++
        part filters.isEmpty "where"
          (.object (filters.map fun (name, value) => (name, value.toJson))) ++
        optional "required" (required.map .bool) ++
        part includes.isEmpty "include" (.array (toJsonAll includes)) ++
        part (!includeAll) "includeAll" (.bool true) ++
        optional "association" (association.map .string) ++
        optional "limit" limit ++
        optional "offset" offset ++
        part order.isEmpty "order"
          (.array (order.map fun entry => .strings entry.segments)) ++
        optional "col" col ++
        optional "distinct" distinct))

/-- Some descriptors as JSON. -/
def toJsonAll : List Descriptor → List Json
  | [] => []
  | descriptor :: rest => toJson descriptor :: toJsonAll rest

end

/-! ### Reading -/

/-- The strings of an array; anything else has none. -/
def stringsOf : Option Json → List String
  | some (.array items) =>
    items.filterMap fun
      | .string s => some s
      | _ => none
  | _ => []

/-- Whether a value is `true`. -/
def isTrueValue (value : Option Json) : Bool :=
  value = some (.bool true)

/-- The entry of an ordering that is written as a list with its direction last. -/
def orderEntry (segments : List String) : OrderEntry :=
  ⟨segments.dropLast, if segments.getLast? = some "DESC" then .descending else .ascending⟩

/-- The lists in an array; anything else has none. -/
def orderOf : Option Json → List OrderEntry
  | some (.array items) => items.map fun item => orderEntry (stringsOf (some item))
  | _ => []

/-- The filters of an object, sorted by name; anything else has none. -/
def filtersOf : Option Json → List (String × FilterValue)
  | some (.object entries) =>
    entries.foldl (fun filters entry =>
      Entries.putSorted entry.1 (FilterValue.ofJson entry.2) filters) []
  | _ => []

/-- A truth value; anything else is absent. -/
def boolOf : Option Json → Option Bool
  | some (.bool b) => some b
  | _ => none

mutual

/-- The descriptor that a value of this layout denotes. -/
def ofJson : Json → Descriptor
  | .object entries =>
    let value key := Entries.lookup? key entries
    { attributes := stringsOf (value "attributes")
      allAttributes := isTrueValue (value "allAttributes")
      excluded := stringsOf (value "exclude")
      filters := filtersOf (value "where")
      required := boolOf (value "required")
      includes := includesOf entries
      includeAll := isTrueValue (value "includeAll")
      association := string? (value "association")
      limit := value "limit"
      offset := value "offset"
      order := orderOf (value "order")
      col := value "col"
      distinct := value "distinct" }
  | _ => {}

/-- The descriptors under the key for associations. -/
def includesOf : List (String × Json) → List Descriptor
  | [] => []
  | (key, value) :: entries =>
    if key = "include" then itemsOf value else includesOf entries

/-- The descriptors in an array; anything else has none. -/
def itemsOf : Json → List Descriptor
  | .array items => ofJsonAll items
  | _ => []

/-- The descriptors that some values denote. -/
def ofJsonAll : List Json → List Descriptor
  | [] => []
  | value :: items => ofJson value :: ofJsonAll items

end

end Descriptor

end FieldSelection
