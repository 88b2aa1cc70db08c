import FieldSelection.Descriptor.Basic
import FieldSelection.Level.Note
import FieldSelection.Query

/-!
Levels: from requests to descriptors.

* `Place.attributes?`: the attributes that a request amounts to. Without
  exclusions and `all` the list stands as written; with either, the fields of the
  place fill it, less the exclusions. Keys mode puts excluded keys back.
* `Place.promoted`: the filters of the query on the attributes of a level.
* `Place.descriptor`: the descriptor of a level and of all levels below it, as far
  as the nesting limit leaves room.
* `Place.notes`: what was noticed below a level, in the order of the descent.
-/

namespace FieldSelection

/-- Options of a compilation. -/
structure CompileOptions where
  /-- Keys mode: filters written with fields count, and excluded keys come
  back. -/
  includeKeys : Bool := false
  /-- Relations nested more deeply than this are dropped. -/
  maxDepth : Nat := 32
  /-- The selection of a query that has none. -/
  defaultFields : String := "all"
  deriving DecidableEq, Repr

/-! ### Attributes -/

/-- The attributes that a request amounts to; `none` stands for every attribute
that is not excluded, where there is nothing to list them from. -/
def Place.attributes? (place : Place) (keysMode : Bool) (request : Request) :
    Option (List String) :=
  if request.isComplement then
    place.fields?.map fun fields => fields.filter fun name =>
      name ∉ request.excluded || (keysMode && place.isKey name)
  else some request.attributes

/-! ### Filters -/

/-- The attributes that filters of the query may be on: the listed ones, or every
name right below this place that the query filters on and that is not
excluded. -/
def Place.filterable (place : Place) (query : Query) (attributes : Option (List String))
    (excluded : List String) : List String :=
  match attributes with
  | some attributes => attributes
  | none =>
    ((Entries.keys query.filters).filterMap (childKey? place.path)).filter (· ∉ excluded)

/-- The filters of the query on attributes of this place. -/
def Place.promoted (place : Place) (query : Query) (attributes : List String) :
    List (String × FilterValue) :=
  attributes.filterMap fun name =>
    (query.filter? (joinPath place.path name)).map fun value =>
      (name, FilterValue.ofQuery value)

/-- Put filters over others, which are sorted by name. -/
def overrideFilters (filters promoted : List (String × FilterValue)) :
    List (String × FilterValue) :=
  promoted.foldl (fun all entry => Entries.putSorted entry.1 entry.2 all) filters

/-- Whether filters have to match: those of the query do, those written with
fields do not. -/
def filterMark (filters promoted : List (String × FilterValue)) : Option Bool :=
  if !promoted.isEmpty then some true
  else if !filters.isEmpty then some false
  else none

/-! ### One level -/

/-- The descriptor of a level whose associations were compiled already. -/
def Place.level (options : CompileOptions) (query : Query) (place : Place)
    (request : Request) (includes : List Descriptor) : Descriptor :=
  let attributes := place.attributes? options.includeKeys request
  let excluded := request.excluded.filter (· ∉ attributes.getD [])
  let promoted := place.promoted query (place.filterable query attributes excluded)
  { attributes := attributes.getD []
    allAttributes := attributes.isNone
    excluded
    filters := overrideFilters request.filters promoted
    required := filterMark request.filters promoted
    includes
    includeAll := request.all && place.shape.isNone }

/-- The relations that a request for everything adds to the ones it names: those
of the shape that are neither named nor excluded. -/
def Place.walked (place : Place) (request : Request) : List String :=
  if request.all then
    place.relations.filter fun name =>
      !request.hasRelation name && name ∉ request.excludedRelations
  else []

/-- A descriptor under the association that leads to it. -/
def Descriptor.under (name : String) (descriptor : Descriptor) : Descriptor :=
  { descriptor with association := some name }

/-! ### All levels -/

/-- The descriptor of a level and of the levels below it; `room` is the number of
levels that may follow. -/
def Place.descriptor (options : CompileOptions) (query : Query) :
    (room : Nat) → Place → Request → Descriptor
  | 0, place, request => place.level options query request []
  | room + 1, place, request =>
    let named := request.relations.filterMap fun relation =>
      (place.enter? relation.name).map fun next =>
        (Place.descriptor options query room next
          (next.request options.includeKeys relation.segments)).under relation.name
    let walked := (place.walked request).filterMap fun name =>
      (place.enter? name).map fun next =>
        (Place.descriptor options query room next .everything).under name
    place.level options query request (named ++ walked)

/-- What was noticed below a level; `room` is the number of levels that may
follow. -/
def Place.notes (options : CompileOptions) : (room : Nat) → Place → Request → List Note
  | 0, place, request =>
    let tooDeep name span : Note := ⟨.tooDeep name options.maxDepth, place.displayPath, span⟩
    request.relations.map (fun relation => tooDeep relation.name relation.span) ++
      (place.walked request).map (fun name => tooDeep name ⟨0, 0⟩)
  | room + 1, place, request =>
    let named := request.relations.flatMap fun relation =>
      match place.enter? relation.name with
      | none => [⟨place.missingCause relation.name, place.displayPath, relation.span⟩]
      | some next =>
        next.scanNotes options.includeKeys relation.segments ++
          Place.notes options room next
            (next.request options.includeKeys relation.segments)
    let walked := (place.walked request).flatMap fun name =>
      match place.enter? name with
      | none => []
      | some next => Place.notes options room next .everything
    named ++ walked

end FieldSelection
