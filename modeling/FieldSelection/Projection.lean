import FieldSelection.Compiler
import FieldSelection.Projection.Flat

/-!
Projections of data onto compiled selections.

* `project`: data cut down to a descriptor, nested or flat.
* `projectionLog`: the events of a projection.
* `filterTop`: compiles a query and projects data in one go; without a shape the
  data comes back as it is. `filterTopLog` are the events of that.
-/

namespace FieldSelection

/-- The layout of a projection. -/
inductive ProjectionMode where
  /-- The nesting of the shape is kept. -/
  | nested
  /-- Every kept field stands in one object under its dotted path. -/
  | flat
  deriving DecidableEq, Repr

/-- The mode that a switch for flat output chooses. -/
def ProjectionMode.ofFlatten (flatten : Bool) : ProjectionMode :=
  if flatten then .flat else .nested

/-- Data cut down to a descriptor, if anything is left to show. -/
def project (data : Json) (shape : Node) (descriptor : Descriptor) :
    ProjectionMode → Option Json
  | .nested => shape.nested data descriptor
  | .flat => shape.flat data descriptor

/-- The events of a projection. Only the nested one reports values that disagree
with the shape. -/
def projectionLog (data : Json) (shape : Node) (descriptor : Descriptor) :
    ProjectionMode → List Event
  | .nested => (shape.mismatches data descriptor).map Json.mismatchEvent
  | .flat => []

/-- Data cut down to what a query selects. -/
def filterTop (data : Json) (shape : Option Node) (query : Query) (mode : ProjectionMode) :
    Option Json :=
  match shape with
  | none => some data
  | some node => project data node (compile query node.shape?) mode

/-- The events of compiling a query and projecting data in one go. -/
def filterTopLog (data : Json) (shape : Option Node) (query : Query) (mode : ProjectionMode) :
    List Event :=
  match shape with
  | none => []
  | some node =>
    Compiler.log { shape := node.shape? } query ++
      projectionLog data node (compile query node.shape?) mode

end FieldSelection
