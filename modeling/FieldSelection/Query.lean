import FieldSelection.Json.Reader
import FieldSelection.Text.Blank
import FieldSelection.Text.Digits

/-!
Queries: what a caller asks for.

A query has a selection text, an ordering text, four parameters that are passed
on, and filters. Every key that is not reserved is the dotted path of a filter.

* `Query.ofPairs`: the query of a list of keys and texts, such as a decoded query
  string.
* `Query.ofJson`, `Query.toJson`: a query as a JSON object.
* `Query.filter?`: the filter on a path; `null` and the empty string filter
  nothing.
-/

namespace FieldSelection

/-- The request that a descriptor is compiled from. -/
structure Query where
  /-- The selection text. -/
  fields : Option String := none
  /-- The ordering text. -/
  order : Option String := none
  limit : Option Json := none
  offset : Option Json := none
  col : Option Json := none
  distinct : Option Json := none
  /-- The filters by dotted path, in order. -/
  filters : List (String × Json) := []
  deriving DecidableEq, Repr, Inhabited

namespace Query

/-- The keys with a meaning of their own. -/
def reservedKeys : List String :=
  ["fields", "order", "limit", "offset", "col", "distinct"]

/-! ### Queries of texts -/

/-- A whole number of 64 bits if the text denotes one, and the text as it is
otherwise. -/
def numberOrText (text : String) : Json :=
  match Text.readBounded (Text.trim text.toList) with
  | some n => .nat n
  | none => .string text

/-- A truth value if the text names one, and the text as it is otherwise. -/
def boolOrText (text : String) : Json :=
  let word := String.ofList (Text.trim text.toList)
  if word = "true" then .bool true
  else if word = "false" then .bool false
  else .string text

/-- Add a filter on a dotted path. -/
def withFilter (query : Query) (path : String) (value : Json) : Query :=
  { query with filters := Entries.put path value query.filters }

/-- Add one key with its text. -/
def addPair (query : Query) (key value : String) : Query :=
  if key = "fields" then { query with fields := some value }
  else if key = "order" then { query with order := some value }
  else if key = "limit" then { query with limit := some (numberOrText value) }
  else if key = "offset" then { query with offset := some (numberOrText value) }
  else if key = "col" then { query with col := some (.string value) }
  else if key = "distinct" then { query with distinct := some (boolOrText value) }
  else query.withFilter key (.string value)

/-- The query of a list of keys and texts; of a repeated key the last text
counts. -/
def ofPairs (pairs : List (String × String)) : Query :=
  pairs.foldl (fun query pair => query.addPair pair.1 pair.2) {}

/-! ### Queries as JSON -/

/-- A text or `null` under a reserved key; `none` for anything else. -/
def textOf : Option Json → Option (Option String)
  | none | some .null => some none
  | some (.string text) => some (some text)
  | some _ => none

/-- A value under a reserved key; `null` reads as absent. -/
def valueOf (value : Option Json) : Option Json :=
  value.filter (· ≠ .null)

/-- The query that an object denotes. A reserved key may stand there only once. -/
def ofEntries (entries : List (String × Json)) : Option Query := do
  let (reserved, filters) := entries.partition fun entry => entry.1 ∈ reservedKeys
  guard (Entries.keys reserved).Nodup
  let value key := Entries.lookup? key reserved
  let fields ← textOf (value "fields")
  let order ← textOf (value "order")
  some
    { fields, order
      limit := valueOf (value "limit")
      offset := valueOf (value "offset")
      col := valueOf (value "col")
      distinct := valueOf (value "distinct")
      filters := Entries.merge filters }

/-- The query that a value denotes, if it is an object of the right form. -/
def ofJson : Json → Option Query
  | .object entries => ofEntries entries
  | _ => none

/-- The entries of an object with its repeated keys, every value settled. -/
def settleValues : Json → Json
  | .object entries => .object (Json.settleEntries entries)
  | value => value

/-- The query that a JSON text denotes. -/
def parse (text : String) : Option Query :=
  (Json.parseRaw Json.nestingLimit text).bind fun value => ofJson (settleValues value)

/-- The reserved keys that are present, with their values. -/
def reserved (query : Query) : List (String × Json) :=
  [("fields", query.fields.map .string), ("order", query.order.map .string),
      ("limit", query.limit), ("offset", query.offset), ("col", query.col),
      ("distinct", query.distinct)].filterMap fun (key, value) => value.map (key, ·)

/-- A query as a JSON object: the reserved keys that are present, then the
filters. -/
def toJson (query : Query) : Json :=
  .object (query.reserved ++ query.filters)

/-! ### Filters -/

/-- Whether a value filters anything. -/
def isFilter (value : Json) : Bool :=
  value ≠ .null && value ≠ .string ""

/-- The filter on a path. -/
def filter? (query : Query) (path : String) : Option Json :=
  (Entries.lookup? path query.filters).filter isFilter

end Query

end FieldSelection
