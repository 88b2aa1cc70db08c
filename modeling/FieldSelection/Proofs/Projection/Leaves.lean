import FieldSelection.Projection.Flat
import FieldSelection.Proofs.Projection.Kept

/-!
What flat projections keep.

A leaf of a flat projection is a kept field, and its path says which way leads to it. Two
ways may be written as the same path, so the ways themselves are listed first.

* `Node.leavesUnder`, `Shape.leaves_eq_flatMap`: the leaves of an object, entry by entry of
  its shape.
* `Shape.leavesOf`: the leaves of one object; the flat projection of an object and the
  leaves behind a relation are told by it.
* `Step`, `Node.routes`: the kept fields with the ways that lead to them.
* `Node.leaves_eq_map`: the leaves are the kept fields under the paths of their ways.
-/

namespace FieldSelection

/-! ### The leaves of one object -/

/-- The leaves that an object has under the key of a node. -/
def Node.leavesUnder (data : List (String × Json)) (descriptor : Descriptor)
    (path key : String) (node : Node) : List (String × Json) :=
  if node.isField then
    if descriptor.selects key then
      (Entries.lookup? key data).toList.map (joinSegment path key, ·)
    else []
  else
    match descriptor.child? key, Entries.lookup? key data with
    | some child, some value => node.leaves value child (joinSegment path key)
    | _, _ => []

namespace Shape

lemma leaves_eq_flatMap (data : List (String × Json)) (descriptor : Descriptor) (path : String)
    (shape : Shape) :
    leaves data descriptor path shape
      = shape.flatMap fun entry => entry.2.leavesUnder data descriptor path entry.1 := by
  induction shape with
  | nil => rw [leaves, List.flatMap_nil]
  | cons entry shape ih =>
      rw [leaves, List.flatMap_cons, ih, Node.leavesUnder]
      congr 1
      cases Entries.lookup? entry.1 data <;> rfl

/-- The leaves of one object; any other value has none. -/
def leavesOf (shape : Shape) (descriptor : Descriptor) (path : String) (data : Json) :
    List (String × Json) :=
  match data.entries? with
  | some entries => leaves entries descriptor path shape
  | none => []

/-- The flat projection of one object holds its leaves. -/
lemma flat_eq_merge (shape : Shape) (descriptor : Descriptor) (data : Json) :
    flat data descriptor shape = .object (Entries.merge (shape.leavesOf descriptor "" data)) := by
  rw [flat, leavesOf]
  cases data.entries? <;> rfl

end Shape

/-- The leaves behind a relation to many objects: those of the elements, under the index of
each. -/
lemma Node.leaves_many (shape : Shape) (items : List Json) (descriptor : Descriptor)
    (path : String) :
    Node.leaves (.array items) descriptor path (.many shape)
      = items.zipIdx.flatMap fun item =>
          shape.leavesOf descriptor (joinSegment path (toString item.2)) item.1 :=
  rfl

/-! ### Ways to leaves -/

/-- A step from a value to one of its parts. -/
inductive Step where
  /-- To the value under a key of an object. -/
  | key (name : String)
  /-- To an element of an array. -/
  | index (place : Nat)
  deriving DecidableEq, Repr

/-- The segment of a dotted path that stands for a step. -/
def Step.text : Step → String
  | .key name => name
  | .index place => toString place

/-- A field with the way that leads to it. -/
abbrev Leaf := List Step × Json

/-- A leaf behind one more step. -/
def Leaf.behind (step : Step) (leaf : Leaf) : Leaf :=
  (step :: leaf.1, leaf.2)

mutual

/-- The kept fields below a node, each with its way through the data. -/
def Node.routes (data : Json) (descriptor : Descriptor) : Node → List Leaf
  | .field _ => []
  | .one shape =>
    match data.entries? with
    | some entries => Shape.routes entries descriptor shape
    | none => []
  | .many shape =>
    match data with
    | .array items =>
      items.zipIdx.flatMap fun item =>
        (match item.1.entries? with
          | some entries => Shape.routes entries descriptor shape
          | none => []).map (Leaf.behind (.index item.2))
    | _ => []

/-- The kept fields of an object and below it, each with its way through the object. -/
def Shape.routes (data : List (String × Json)) (descriptor : Descriptor) :
    List (String × Node) → List Leaf
  | [] => []
  | (key, node) :: shape =>
    (if node.isField then
        if descriptor.selects key then (Entries.lookup? key data).toList.map ([], ·) else []
      else
        match descriptor.child? key, Entries.lookup? key data with
        | some child, some value => Node.routes value child node
        | _, _ => []).map (Leaf.behind (.key key)) ++
      Shape.routes data descriptor shape

end

/-- The kept fields under the key of a node, each with its way from there. -/
def Node.routesUnder (data : List (String × Json)) (descriptor : Descriptor) (key : String)
    (node : Node) : List Leaf :=
  if node.isField then
    if descriptor.selects key then (Entries.lookup? key data).toList.map ([], ·) else []
  else
    match descriptor.child? key, Entries.lookup? key data with
    | some child, some value => node.routes value child
    | _, _ => []

section Under

variable {data : List (String × Json)} {descriptor : Descriptor} {key : String} {node : Node}

/-- A field that is kept is a leaf itself. -/
lemma Node.routesUnder_of_isField (h : node.isField = true) :
    node.routesUnder data descriptor key
      = (node.shown? data descriptor key).toList.map ([], ·) := by
  rw [routesUnder, shown?_of_isField h, if_pos h]
  split <;> rfl

/-- Behind a relation that is followed there are the leaves of what stands there. -/
lemma Node.routesUnder_of_isRelation (h : node.isRelation = true) :
    node.routesUnder data descriptor key
      = (descriptor.child? key).elim [] fun child =>
          (Entries.lookup? key data).elim [] fun value => node.routes value child := by
  rw [routesUnder, if_neg (by simpa [isRelation] using h)]
  cases descriptor.child? key with
  | none => rfl
  | some child => cases Entries.lookup? key data <;> rfl

end Under

namespace Shape

lemma routes_eq_flatMap (data : List (String × Json)) (descriptor : Descriptor) (shape : Shape) :
    routes data descriptor shape
      = shape.flatMap fun entry =>
          (entry.2.routesUnder data descriptor entry.1).map (Leaf.behind (.key entry.1)) := by
  induction shape with
  | nil => rw [routes, List.flatMap_nil]
  | cons entry shape ih =>
      rw [routes, List.flatMap_cons, ih]
      rfl

/-- The kept fields of one object; any other value has none. -/
def routesOf (shape : Shape) (descriptor : Descriptor) (data : Json) : List Leaf :=
  match data.entries? with
  | some entries => routes entries descriptor shape
  | none => []

end Shape

/-- The kept fields behind a relation to one object. -/
lemma Node.routes_one (shape : Shape) (data : Json) (descriptor : Descriptor) :
    Node.routes data descriptor (.one shape) = shape.routesOf descriptor data :=
  rfl

/-- The kept fields behind a relation to many objects. -/
lemma Node.routes_many (shape : Shape) (items : List Json) (descriptor : Descriptor) :
    Node.routes (.array items) descriptor (.many shape)
      = items.zipIdx.flatMap fun item =>
          (shape.routesOf descriptor item.1).map (Leaf.behind (.index item.2)) :=
  rfl

/-! ### Paths of leaves -/

/-- The dotted path that a way leads to from a path. -/
def joinSteps (path : String) (steps : List Step) : String :=
  steps.foldl (fun path step => joinSegment path step.text) path

/-- A leaf as an entry of a flat object, below a path. -/
def Leaf.entry (path : String) (leaf : Leaf) : String × Json :=
  (joinSteps path leaf.1, leaf.2)

/-- A step of the way is a segment of the path. -/
lemma Leaf.map_entry_behind (path : String) (step : Step) (leaves : List Leaf) :
    (leaves.map (Leaf.behind step)).map (Leaf.entry path)
      = leaves.map (Leaf.entry (joinSegment path step.text)) := by
  rw [List.map_map]
  rfl

/-- Whether the leaves behind a node are the kept fields under the paths of their ways. -/
def Node.LeavesAlongRoutes (node : Node) : Prop :=
  ∀ (descriptor : Descriptor) (data : Json) (path : String),
    node.leaves data descriptor path = (node.routes data descriptor).map (Leaf.entry path)

/-- One object. -/
lemma Shape.leavesOf_eq_map {shape : Shape} (h : ∀ entry ∈ shape, entry.2.LeavesAlongRoutes)
    (descriptor : Descriptor) (data : Json) (path : String) :
    shape.leavesOf descriptor path data
      = (shape.routesOf descriptor data).map (Leaf.entry path) := by
  rw [leavesOf, routesOf]
  cases data.entries? with
  | none => rfl
  | some entries =>
      show leaves entries descriptor path shape
        = (routes entries descriptor shape).map (Leaf.entry path)
      rw [leaves_eq_flatMap, routes_eq_flatMap, List.map_flatMap]
      refine List.flatMap_congr fun entry hm => ?_
      rw [Leaf.map_entry_behind, Step.text, Node.leavesUnder, Node.routesUnder]
      cases entry.2.isField with
      | true => cases descriptor.selects entry.1 <;> cases Entries.lookup? entry.1 entries <;> rfl
      | false =>
          cases descriptor.child? entry.1 with
          | none => rfl
          | some child =>
              cases Entries.lookup? entry.1 entries with
              | none => rfl
              | some value => exact h entry hm child value (joinSegment path entry.1)

/-- **The leaves behind a node** are the kept fields under the paths of their ways. -/
lemma Node.leaves_eq_map (node : Node) : node.LeavesAlongRoutes := by
  induction node using Node.ind with
  | field role => exact fun descriptor data path => rfl
  | one shape ih => exact fun descriptor data path => Shape.leavesOf_eq_map ih descriptor data path
  | many shape ih =>
      intro descriptor data path
      cases data with
      | array items =>
          rw [leaves_many, routes_many, List.map_flatMap]
          refine List.flatMap_congr fun item _ => ?_
          rw [Leaf.map_entry_behind]
          exact Shape.leavesOf_eq_map ih descriptor item.1 _
      | _ => rfl

end FieldSelection
