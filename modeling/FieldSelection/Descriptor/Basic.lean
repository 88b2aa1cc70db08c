import FieldSelection.Filter
import FieldSelection.Order

/-!
Descriptors: compiled selections.

A descriptor says which attributes of a level are kept, which associations are
followed, which filters apply and how to sort.

* `Descriptor.selects`: whether an attribute is kept.
* `Descriptor.include?`: the descriptor of an association that is listed.
* `Descriptor.child?`: the descriptor of an association that is followed at all;
  where every association is followed, one that is not listed gets
  `Descriptor.everything`.
-/

namespace FieldSelection

/-- The compiled selection of one level. -/
structure Descriptor where
  /-- The attributes to keep. -/
  attributes : List String := []
  /-- Every attribute is kept that is not excluded. -/
  allAttributes : Bool := false
  /-- The attributes that are excluded. -/
  excluded : List String := []
  /-- The filters on attributes, sorted by name. -/
  filters : List (String × FilterValue) := []
  /-- Whether the filters have to match, if there are filters. -/
  required : Option Bool := none
  /-- The associations to follow. -/
  includes : List Descriptor := []
  /-- Every association that is not listed is followed in full. -/
  includeAll : Bool := false
  /-- The association that leads to this level. -/
  association : Option String := none
  limit : Option Json := none
  offset : Option Json := none
  order : List OrderEntry := []
  col : Option Json := none
  distinct : Option Json := none
  deriving Repr, Inhabited

namespace Descriptor

/-- Every attribute and every association. -/
def everything : Descriptor :=
  { allAttributes := true, includeAll := true }

/-- Whether an attribute is kept at this level. -/
def selects (descriptor : Descriptor) (name : String) : Bool :=
  name ∈ descriptor.attributes ||
    (descriptor.allAttributes && name ∉ descriptor.excluded)

/-- The descriptor that is listed for an association, the first one if there are
several. -/
def include? (descriptor : Descriptor) (name : String) : Option Descriptor :=
  descriptor.includes.find? (·.association = some name)

/-- The descriptor that governs an association, if it is followed at all. -/
def child? (descriptor : Descriptor) (name : String) : Option Descriptor :=
  match descriptor.include? name with
  | some child => some child
  | none => if descriptor.includeAll then some everything else none

/-- Whether the filters of this level have to match. -/
def filtersRequired (descriptor : Descriptor) : Bool :=
  descriptor.required.getD false

/-- Whether nothing at all is selected. -/
def isEmpty (descriptor : Descriptor) : Bool :=
  descriptor.attributes.isEmpty && !descriptor.allAttributes &&
    descriptor.includes.isEmpty && !descriptor.includeAll

end Descriptor

end FieldSelection
