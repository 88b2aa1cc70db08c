import FieldSelection.Projection.Nested

/-!
Flat projection: every kept field of an object stands in one object under its
dotted path.

The names of relations are segments of the path, and so is the index of an element
of a relation to many. A root for many objects gives one flat object an element.

* `Shape.leaves`: the kept fields of an object with their paths, in order.
* `Node.flat`: the projection of data through a root.
-/

namespace FieldSelection

/-- A segment below a dotted path. -/
def joinSegment (path segment : String) : String :=
  if path = "" then segment else path ++ "." ++ segment

mutual

/-- The kept fields below a node, with their paths. -/
def Node.leaves (data : Json) (descriptor : Descriptor) (path : String) :
    Node → List (String × Json)
  | .field _ => []
  | .one shape =>
    match data.entries? with
    | some entries => Shape.leaves entries descriptor path shape
    | none => []
  | .many shape =>
    match data with
    | .array items =>
      items.zipIdx.flatMap fun (item, index) =>
        match item.entries? with
        | some entries =>
          Shape.leaves entries descriptor (joinSegment path (toString index)) shape
        | none => []
    | _ => []

/-- The kept fields of an object and below it, with their paths. -/
def Shape.leaves (data : List (String × Json)) (descriptor : Descriptor) (path : String) :
    List (String × Node) → List (String × Json)
  | [] => []
  | (key, node) :: shape =>
    let here :=
      if node.isField then
        if descriptor.selects key then
          match Entries.lookup? key data with
          | some value => [(joinSegment path key, value)]
          | none => []
        else []
      else
        match descriptor.child? key, Entries.lookup? key data with
        | some child, some value => Node.leaves value child (joinSegment path key) node
        | _, _ => []
    here ++ Shape.leaves data descriptor path shape

end

/-- One flat object: the kept fields, of equal paths the last one. -/
def Shape.flat (data : Json) (descriptor : Descriptor) (shape : Shape) : Json :=
  match data.entries? with
  | some entries => .object (Entries.merge (Shape.leaves entries descriptor "" shape))
  | none => .object []

/-- The flat projection of data through a root, if anything is left to show. -/
def Node.flat (data : Json) (descriptor : Descriptor) : Node → Option Json
  | .field _ => none
  | .one shape => if data = .null then none else some (Shape.flat data descriptor shape)
  | .many shape =>
    match data with
    | .array items => some (.array (items.map fun item => Shape.flat item descriptor shape))
    | _ => none

end FieldSelection
