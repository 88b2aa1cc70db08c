import FieldSelection.Proofs.Projection.Leaves
import FieldSelection.Proofs.Shape.Declared

/-!
The leaves of nested projections, and where they come from.

An array that is projected loses the elements of which nothing is shown, so that the
position of a leaf in the result is not its position in the data.

* `Json.fieldLeaves`: the field leaves of a nested projection with their positions in it.
* `Shape.survivors`, `Node.origin`: the elements that are not lost, and the position in the
  data that a position in the result stands for.
* `Node.routes_eq_map_origin`: the field leaves, taken to their origins, are the kept fields
  of the data.
-/

namespace FieldSelection

/-! ### Leaves of a result -/

mutual

/-- The field leaves of a nested projection through a node, in its order. -/
def Json.fieldLeaves : Json → Node → List Leaf
  | .object kept, .one shape => Json.entryLeaves kept shape
  | .array shown, .many shape => Json.itemLeaves shown shape 0
  | _, _ => []

/-- The field leaves of the entries of an object. -/
def Json.entryLeaves : List (String × Json) → Shape → List Leaf
  | [], _ => []
  | (key, value) :: kept, shape =>
    (match shape.get? key with
      | some (.field _) => [([], value)]
      | some node => Json.fieldLeaves value node
      | none => []).map (Leaf.behind (.key key)) ++
      Json.entryLeaves kept shape

/-- The field leaves of the elements of an array, counted from an index. -/
def Json.itemLeaves : List Json → Shape → Nat → List Leaf
  | [], _, _ => []
  | value :: shown, shape, place =>
    (Json.fieldLeaves value (.one shape)).map (Leaf.behind (.index place)) ++
      Json.itemLeaves shown shape (place + 1)

end

/-- The field leaves of a projection that may be absent. -/
def Node.shownLeaves (node : Node) (shown : Option Json) : List Leaf :=
  shown.elim [] fun value => value.fieldLeaves node

/-! ### Origins -/

/-- The elements of an array of which something is shown, each with its index. -/
def Shape.survivors (shape : Shape) (descriptor : Descriptor) (items : List Json) :
    List (Json × Nat) :=
  items.zipIdx.filter fun item => (shape.shown? descriptor item.1).isSome

/-- The position in the data that a position in its projection stands for: an element of an
array is the survivor that stands in its place. -/
def Node.origin (node : Node) (descriptor : Descriptor) (data : Json) :
    List Step → List Step
  | [] => []
  | .key name :: steps =>
    .key name ::
      match node.shape?.bind (Shape.get? · name), descriptor.child? name, data.get? name with
      | some next, some child, some value => next.origin child value steps
      | _, _, _ => steps
  | .index place :: steps =>
    match node, data with
    | .many shape, .array items =>
      match (Shape.survivors shape descriptor items)[place]? with
      | some (item, index) => .index index :: Node.origin (.one shape) descriptor item steps
      | none => .index place :: steps
    | _, _ => .index place :: steps

/-- A leaf at its origin. -/
def Leaf.atOrigin (node : Node) (descriptor : Descriptor) (data : Json) (leaf : Leaf) : Leaf :=
  (node.origin descriptor data leaf.1, leaf.2)

section Origin

variable {node next : Node} {descriptor child : Descriptor} {data value : Json} {name : String}

/-- A key of a result is a key of the data, and below it the origin is that of the relation
behind it. -/
lemma Leaf.atOrigin_behind_key (hnext : node.shape?.bind (Shape.get? · name) = some next)
    (hchild : descriptor.child? name = some child) (hvalue : data.get? name = some value)
    (leaf : Leaf) :
    (leaf.behind (.key name)).atOrigin node descriptor data
      = (leaf.atOrigin next child value).behind (.key name) := by
  rw [atOrigin, behind, Node.origin, hnext, hchild, hvalue]
  rfl

/-- A field that is kept is its own origin. -/
lemma Node.origin_key : node.origin descriptor data [.key name] = [.key name] := by
  rw [origin]
  split <;> rfl

/-- An element of a result is a survivor, and below it the origin is that of its object. -/
lemma Leaf.atOrigin_behind_index {shape : Shape} {items : List Json} {item : Json}
    {place index : Nat}
    (h : (Shape.survivors shape descriptor items)[place]? = some (item, index)) (leaf : Leaf) :
    (leaf.behind (.index place)).atOrigin (.many shape) descriptor (.array items)
      = (leaf.atOrigin (.one shape) descriptor item).behind (.index index) := by
  rw [atOrigin, behind, Node.origin, h]
  rfl

end Origin

/-! ### The kept fields as leaves of the result -/

/-- Whether the kept fields behind a node are the leaves of the projection at their
origins. -/
def Node.RoutesOfLeaves (node : Node) : Prop :=
  ∀ (descriptor : Descriptor) (data : Json), node.routes data descriptor
    = (node.shownLeaves (node.nested data descriptor)).map (Leaf.atOrigin node descriptor data)

/-- The field leaves of the value under a key. -/
def Shape.leavesUnder (shape : Shape) (key : String) (value : Json) : List Leaf :=
  match shape.get? key with
  | some (.field _) => [([], value)]
  | some node => value.fieldLeaves node
  | none => []

lemma Shape.leavesUnder_field {shape : Shape} {key : String} {node : Node}
    (h : shape.get? key = some node) (hfield : node.isField = true) (value : Json) :
    shape.leavesUnder key value = [([], value)] := by
  cases node with
  | field role => rw [leavesUnder, h]
  | one sub => cases hfield
  | many sub => cases hfield

lemma Shape.leavesUnder_relation {shape : Shape} {key : String} {node : Node}
    (h : shape.get? key = some node) (hrelation : node.isRelation = true) (value : Json) :
    shape.leavesUnder key value = value.fieldLeaves node := by
  cases node with
  | field role => cases hrelation
  | one sub => rw [leavesUnder, h]
  | many sub => rw [leavesUnder, h]

lemma Json.entryLeaves_eq_flatMap (kept : List (String × Json)) (shape : Shape) :
    entryLeaves kept shape
      = kept.flatMap fun entry =>
          (shape.leavesUnder entry.1 entry.2).map (Leaf.behind (.key entry.1)) := by
  induction kept with
  | nil => rw [entryLeaves, List.flatMap_nil]
  | cons entry kept ih =>
      rw [entryLeaves, List.flatMap_cons, ih]
      rfl

namespace Shape

variable {shape : Shape} {descriptor : Descriptor}

/-- Under the key of a node the kept fields are the leaves of what is kept there. -/
lemma routesUnder_eq (hn : (Entries.keys shape).Nodup)
    (hnodes : ∀ entry ∈ shape, entry.2.RoutesOfLeaves) {entry : String × Node}
    (hm : entry ∈ shape) (data : List (String × Json)) :
    (entry.2.routesUnder data descriptor entry.1).map (Leaf.behind (.key entry.1))
      = ((entry.2.shown? data descriptor entry.1).elim [] fun value =>
          (shape.leavesUnder entry.1 value).map (Leaf.behind (.key entry.1))).map
            (Leaf.atOrigin (.one shape) descriptor (.object data)) := by
  have hget : shape.get? entry.1 = some entry.2 := Entries.lookup?_of_mem hn hm
  rcases entry.2.isField_or_isRelation with hfield | hrelation
  · rw [Node.routesUnder_of_isField hfield]
    cases entry.2.shown? data descriptor entry.1 with
    | none => rfl
    | some value =>
        simp [leavesUnder_field hget hfield, Leaf.behind, Leaf.atOrigin, Node.origin_key]
  · rw [Node.routesUnder_of_isRelation hrelation, Node.shown?_of_isRelation hrelation]
    cases hchild : descriptor.child? entry.1 with
    | none => rfl
    | some child =>
        cases hvalue : Entries.lookup? entry.1 data with
        | none => rfl
        | some value =>
            simp only [Option.elim_some, Option.bind_some]
            rw [hnodes entry hm child value]
            cases entry.2.nested value child with
            | none => rfl
            | some shown =>
                have hbehind : ∀ leaf : Leaf,
                    (leaf.behind (.key entry.1)).atOrigin (.one shape) descriptor (.object data)
                      = (leaf.atOrigin entry.2 child value).behind (.key entry.1) :=
                  Leaf.atOrigin_behind_key hget hchild hvalue
                simp only [Option.elim_some, Node.shownLeaves,
                  leavesUnder_relation hget hrelation, List.map_map, Function.comp_def, hbehind]

/-- **One object**: the kept fields are the leaves of its projection at their origins. -/
lemma routesOf_eq (hn : (Entries.keys shape).Nodup)
    (hnodes : ∀ entry ∈ shape, entry.2.RoutesOfLeaves) (data : Json) :
    shape.routesOf descriptor data
      = ((Node.one shape).shownLeaves (shape.shown? descriptor data)).map
          (Leaf.atOrigin (.one shape) descriptor data) := by
  cases data with
  | object entries =>
      have hleaves : (Node.one shape).shownLeaves (shape.shown? descriptor (.object entries))
          = Json.entryLeaves (kept entries descriptor shape) shape := by
        show (Node.one shape).shownLeaves (Json.ofKept (kept entries descriptor shape)) = _
        cases kept entries descriptor shape <;> rfl
      calc shape.routesOf descriptor (.object entries)
          = shape.flatMap fun entry =>
              (entry.2.routesUnder entries descriptor entry.1).map
                (Leaf.behind (.key entry.1)) :=
            routes_eq_flatMap entries descriptor shape
        _ = shape.flatMap fun entry =>
              ((entry.2.shown? entries descriptor entry.1).elim [] fun value =>
                (shape.leavesUnder entry.1 value).map (Leaf.behind (.key entry.1))).map
                  (Leaf.atOrigin (.one shape) descriptor (.object entries)) :=
            List.flatMap_congr fun entry hm => routesUnder_eq hn hnodes hm entries
        _ = (Json.entryLeaves (kept entries descriptor shape) shape).map
              (Leaf.atOrigin (.one shape) descriptor (.object entries)) := by
            rw [Json.entryLeaves_eq_flatMap, kept_eq_filterMap, List.filterMap_eq_flatMap_toList,
              List.flatMap_assoc, List.map_flatMap]
            refine List.flatMap_congr fun entry _ => ?_
            cases entry.2.shown? entries descriptor entry.1 <;> simp
        _ = _ := by rw [hleaves]
  | _ => rfl

/-- The elements of an array: those of which something is shown stand for the survivors. -/
lemma routes_items_eq (hn : (Entries.keys shape).Nodup)
    (hnodes : ∀ entry ∈ shape, entry.2.RoutesOfLeaves) {all : List Json} (items : List Json)
    (index : Nat) (front : List (Json × Nat))
    (hall : shape.survivors descriptor all = front ++ (items.zipIdx index).filter fun item =>
      (shape.shown? descriptor item.1).isSome) :
    ((items.zipIdx index).flatMap fun item =>
        (shape.routesOf descriptor item.1).map (Leaf.behind (.index item.2)))
      = (Json.itemLeaves (items.filterMap (shape.shown? descriptor)) shape front.length).map
          (Leaf.atOrigin (.many shape) descriptor (.array all)) := by
  induction items generalizing index front with
  | nil => rfl
  | cons item items ih =>
      rw [List.zipIdx_cons, List.flatMap_cons, routesOf_eq hn hnodes, List.filterMap_cons]
      rw [List.zipIdx_cons, List.filter_cons] at hall
      cases hitem : shape.shown? descriptor item with
      | none =>
          rw [hitem] at hall
          rw [ih (index + 1) front (by simpa using hall)]
          rfl
      | some value =>
          rw [hitem] at hall
          have hplace : (shape.survivors descriptor all)[front.length]? = some (item, index) := by
            rw [hall]
            simp
          have hrest := ih (index + 1) (front ++ [(item, index)]) (by simpa using hall)
          rw [List.length_append, List.length_singleton] at hrest
          have hbehind := Leaf.atOrigin_behind_index hplace
          rw [hrest, Json.itemLeaves, List.map_append]
          simp only [Node.shownLeaves, Option.elim_some, List.map_map, Function.comp_def, hbehind]

end Shape

/-- **The kept fields** behind a node are the field leaves of its projection at their
origins. -/
lemma Node.routes_eq_map_origin (node : Node) (hn : node.Distinct) : node.RoutesOfLeaves := by
  induction node, hn using Node.Distinct.ind with
  | field role h => exact fun descriptor data => rfl
  | one shape h hkeys ih => exact fun descriptor data => Shape.routesOf_eq hkeys ih data
  | many shape h hkeys ih =>
      intro descriptor data
      cases data with
      | array items => exact Shape.routes_items_eq hkeys ih items 0 [] rfl
      | _ => rfl

end FieldSelection
