import FieldSelection.Json.Basic

/-!
Records in data formats.

A record with named fields is written as an object or, field by field, as an
array. A word of a fixed set is written as a string or as an object whose only
key it is. A few conventions tell the formats apart.

* `Convention`: those conventions; `Convention.json` and `Convention.toml`
  are the ones in use.
* `Convention.fields?`: the values of the fields of a record.
* `Convention.word?`: the word that a value names.
-/

namespace FieldSelection

/-- What a data format allows in records and words. -/
structure Convention where
  /-- Whether an array may hold more items than the record has fields. -/
  allowsExtraItems : Bool
  /-- The values that may stand under a word that is written as a key. -/
  emptyPayloads : List Json
  /-- Whether `null` reads as an absent value. -/
  hasNull : Bool

namespace Convention

/-- Records in JSON. -/
def json : Convention :=
  ⟨false, [.null], true⟩

/-- Records in TOML. -/
def toml : Convention :=
  ⟨true, [.array [], .object []], false⟩

/-- The values of the fields with the given names, absent ones as `none`. -/
def fields? (convention : Convention) (names : List String) :
    Json → Option (List (Option Json))
  | .object entries => some (names.map fun name => Entries.lookup? name entries)
  | .array items =>
    if convention.allowsExtraItems || items.length ≤ names.length then
      some ((List.range names.length).map fun i => items[i]?)
    else none
  | _ => none

/-- The word that a value names. -/
def word? (convention : Convention) : Json → Option String
  | .string word => some word
  | .object [(word, payload)] =>
    if payload ∈ convention.emptyPayloads then some word else none
  | _ => none

end Convention

/-! ### Single fields -/

/-- A string that has to be there. -/
def string? : Option Json → Option String
  | some (.string s) => some s
  | _ => none

/-- A list of records that may be absent. -/
def list? (read : Json → Option α) : Option Json → Option (List α)
  | none => some []
  | some (.array items) => items.mapM read
  | some _ => none

end FieldSelection
