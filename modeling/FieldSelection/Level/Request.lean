import FieldSelection.Filter
import FieldSelection.Level.Place
import FieldSelection.Selection.Token

/-!
Requests: what the tokens of one level ask for.

A level may be asked for by several bodies, since a relation that is named twice
is one relation. The names in a request exist at its place.

* `Request.add`: what one token adds to a request.
* `Place.request`: what the bodies of a level ask for together.
-/

namespace FieldSelection

open FieldSelection.Selection

/-- A body of a selection and where it starts in the whole text. -/
structure Segment where
  text : String
  offset : Nat
  deriving DecidableEq, Repr

/-- A relation with all the bodies it was named with. -/
structure RelationRequest where
  name : String
  segments : List Segment
  deriving DecidableEq, Repr

/-- What a level was asked for. -/
structure Request where
  attributes : List String := []
  excluded : List String := []
  excludedRelations : List String := []
  /-- The filters written with the fields, sorted by name. -/
  filters : List (String × FilterValue) := []
  relations : List RelationRequest := []
  /-- Whether all fields and relations were asked for. -/
  all : Bool := false
  deriving DecidableEq, Repr, Inhabited

/-! ### Adding one thing -/

/-- A list with a name in it: at the end, unless it is there already. -/
def insertName (name : String) (names : List String) : List String :=
  if name ∈ names then names else names ++ [name]

/-- Name a relation with one more body. -/
def insertSegment (name : String) (segment : Segment) :
    List RelationRequest → List RelationRequest
  | [] => [⟨name, [segment]⟩]
  | relation :: rest =>
    if relation.name = name then
      { relation with segments := relation.segments ++ [segment] } :: rest
    else relation :: insertSegment name segment rest

namespace Request

/-- Just everything. -/
def everything : Request :=
  { all := true }

/-- Ask for a field. -/
def withField (request : Request) (name : String) : Request :=
  { request with attributes := insertName name request.attributes }

/-- Exclude a field. -/
def withoutField (request : Request) (name : String) : Request :=
  { request with excluded := insertName name request.excluded }

/-- Exclude a relation. -/
def withoutRelation (request : Request) (name : String) : Request :=
  { request with excludedRelations := insertName name request.excludedRelations }

/-- Filter on a field; the last filter on a field counts. -/
def withFilter (request : Request) (name value : String) : Request :=
  { request with
    filters := Entries.putSorted name (.one (.string value)) request.filters }

/-- Name a relation with a body. -/
def withRelation (request : Request) (name : String) (segment : Segment) : Request :=
  { request with relations := insertSegment name segment request.relations }

/-- Whether a relation was named. -/
def hasRelation (request : Request) (name : String) : Bool :=
  request.relations.any (·.name = name)

/-- Whether the fields are found by leaving some out: all of them were asked for,
or something was excluded. -/
def isComplement (request : Request) : Bool :=
  request.all || !request.excluded.isEmpty || !request.excludedRelations.isEmpty

end Request

/-! ### Tokens and bodies -/

/-- Where the body of a relation token starts in the whole text, if the scanned
body starts at `base`. -/
def bodyStart (base : Nat) (token : LocatedToken) : Nat :=
  base + token.bodyOffset.getD token.span.start

/-- What one token adds to the request of a place. Names that the place does not
know add nothing; filters count in keys mode only. -/
def Request.add (place : Place) (keysMode : Bool) (base : Nat) (request : Request)
    (token : LocatedToken) : Request :=
  match token.token with
  | .all => { request with all := true }
  | .field name => if place.hasField name then request.withField name else request
  | .except name =>
    if place.hasField name then request.withoutField name
    else if (place.enter? name).isSome then request.withoutRelation name
    else request
  | .filter name value =>
    if place.hasField name then
      (if keysMode then request.withFilter name value else request).withField name
    else request
  | .relation name body => request.withRelation name ⟨body, bodyStart base token⟩

/-- What one body adds to the request of a place. -/
def Request.addSegment (place : Place) (keysMode : Bool) (request : Request)
    (segment : Segment) : Request :=
  (tokenize segment.text.toList).tokens.foldl (Request.add place keysMode segment.offset)
    request

/-- What the bodies of a level ask for together. -/
def Place.request (place : Place) (keysMode : Bool) (segments : List Segment) : Request :=
  segments.foldl (Request.addSegment place keysMode) {}

end FieldSelection
