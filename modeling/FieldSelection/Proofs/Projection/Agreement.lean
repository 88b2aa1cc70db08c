import FieldSelection.Proofs.Projection.Leaves
import FieldSelection.Proofs.Projection.Narrowing

/-!
Descriptors that agree.

A projection asks a descriptor two things: whether it selects a field of the shape, and
what it follows a relation of the shape with. Descriptors that are below each other give
the same answers, however they are written, and so show the same of all data.

* `Node.Agree`, `Shape.Agree`: each descriptor is below the other one; `Shape.agree_iff`
  tells it entry by entry.
* `Node.nested_eq_of_agree`, `Node.leaves_eq_of_agree`: what is shown behind a node, nested
  and flat, by induction on nodes.
* `project_eq_of_agree`: projections in both layouts.
-/

namespace FieldSelection

/-! ### Agreement -/

/-- Two descriptors select the same of what a node leads to. -/
def Node.Agree (first second : Descriptor) (node : Node) : Prop :=
  Node.Below first second node ∧ Node.Below second first node

/-- Two descriptors select the same of the entries of a shape. -/
def Shape.Agree (first second : Descriptor) (shape : Shape) : Prop :=
  Shape.Below first second shape ∧ Shape.Below second first shape

/-- Two descriptors select the same of one entry of a shape: the field or not, and behind a
relation the same. -/
def Node.AgreeUnder (first second : Descriptor) (key : String) (node : Node) : Prop :=
  if node.isField then first.selects key = second.selects key
  else Option.Rel (fun child other => Node.Agree child other node)
    (first.child? key) (second.child? key)

/-- Optional values that lead to each other are both absent, or related both ways. -/
lemma rel_iff_follows {α : Type} {P : α → α → Prop} {first second : Option α} :
    Option.Rel (fun a b => P a b ∧ P b a) first second ↔
      (∀ a, first = some a → ∃ b, second = some b ∧ P a b) ∧
        ∀ b, second = some b → ∃ a, first = some a ∧ P b a := by
  cases first <;> cases second <;> simp

namespace Shape

variable {shape : Shape} {first second first' second' : Descriptor}

lemma agree_iff :
    Shape.Agree first second shape ↔
      ∀ entry ∈ shape, Node.AgreeUnder first second entry.1 entry.2 := by
  rw [Agree, below_iff, below_iff, ← forall₂_and]
  refine forall₂_congr fun entry _ => ?_
  rw [Node.AgreeUnder]
  split
  · exact (Bool.eq_iff_iff.trans iff_def).symm
  · exact rel_iff_follows.symm

/-- Agreement depends on what descriptors answer, not on how they are written. -/
lemma Agree.congr (h : Shape.Agree first second shape)
    (hselects : ∀ name, first'.selects name = first.selects name)
    (hchild : ∀ name, first'.child? name = first.child? name)
    (hselects' : ∀ name, second'.selects name = second.selects name)
    (hchild' : ∀ name, second'.child? name = second.child? name) :
    Shape.Agree first' second' shape := by
  rw [agree_iff] at h ⊢
  simpa only [Node.AgreeUnder, hselects, hchild, hselects', hchild'] using h

/-- What a node leads to is what its shape does. -/
lemma Agree.behind (h : Shape.Agree first second shape) {node : Node}
    (hs : node.shape? = some shape) : Node.Agree first second node := by
  cases node with
  | field role => cases hs
  | one sub =>
      cases hs
      exact h
  | many sub =>
      cases hs
      exact h

end Shape

/-! ### What is shown -/

namespace Node

variable {first second : Descriptor} {key : String} {node : Node}

/-- A field is selected by both or by none. -/
lemma AgreeUnder.selects_eq (h : node.AgreeUnder first second key) (hfield : node.isField = true) :
    first.selects key = second.selects key := by
  rwa [AgreeUnder, if_pos hfield] at h

/-- A relation is followed by none, or by both with descriptors that agree behind it. -/
lemma AgreeUnder.rel_child? (h : node.AgreeUnder first second key)
    (hrelation : node.isRelation = true) :
    Option.Rel (fun child other => Node.Agree child other node)
      (first.child? key) (second.child? key) := by
  rwa [AgreeUnder, if_neg (by simpa [isRelation] using hrelation)] at h

lemma shown?_eq_of_agree (h : node.AgreeUnder first second key)
    (hnode : ∀ child other, Node.Agree child other node → ∀ data,
      node.nested data child = node.nested data other) (data : List (String × Json)) :
    node.shown? data first key = node.shown? data second key := by
  rcases node.isField_or_isRelation with hfield | hrelation
  · rw [shown?_of_isField hfield, shown?_of_isField hfield, h.selects_eq hfield]
  · have hchild := h.rel_child? hrelation
    rw [shown?_of_isRelation hrelation, shown?_of_isRelation hrelation]
    generalize first.child? key = child?, second.child? key = other? at hchild
    cases hchild with
    | none => rfl
    | some hagree => simp only [Option.bind_some, hnode _ _ hagree]

lemma leavesUnder_eq_of_agree (h : node.AgreeUnder first second key)
    (hnode : ∀ child other, Node.Agree child other node → ∀ data path,
      node.leaves data child path = node.leaves data other path)
    (data : List (String × Json)) (path : String) :
    node.leavesUnder data first path key = node.leavesUnder data second path key := by
  rw [leavesUnder, leavesUnder]
  rcases node.isField_or_isRelation with hfield | hrelation
  · rw [if_pos hfield, if_pos hfield, h.selects_eq hfield]
  · have hchild := h.rel_child? hrelation
    have hfield : ¬ node.isField = true := by simpa [isRelation] using hrelation
    rw [if_neg hfield, if_neg hfield]
    generalize first.child? key = child?, second.child? key = other? at hchild
    cases hchild with
    | none => rfl
    | some hagree =>
        cases Entries.lookup? key data with
        | none => rfl
        | some value => exact hnode _ _ hagree value _

end Node

section Objects

variable {shape : Shape} {first second : Descriptor}

/-- Of one object the same is shown, if it is behind every entry. -/
lemma Shape.shown?_eq_of_agree (h : Shape.Agree first second shape)
    (hnodes : ∀ entry ∈ shape, ∀ child other, Node.Agree child other entry.2 → ∀ data,
      Node.nested data child entry.2 = Node.nested data other entry.2) :
    shape.shown? first = shape.shown? second := by
  funext data
  have hkept : ∀ entries, Shape.kept entries first shape = Shape.kept entries second shape := by
    intro entries
    rw [Shape.kept_eq_filterMap, Shape.kept_eq_filterMap]
    refine List.filterMap_congr fun entry hm => ?_
    rw [Node.shown?_eq_of_agree (Shape.agree_iff.mp h entry hm) (hnodes entry hm)]
  simp only [Shape.shown?, hkept]

/-- One object has the same leaves, if there are the same behind every entry. -/
lemma Shape.leavesOf_eq_of_agree (h : Shape.Agree first second shape)
    (hnodes : ∀ entry ∈ shape, ∀ child other, Node.Agree child other entry.2 → ∀ data path,
      Node.leaves data child path entry.2 = Node.leaves data other path entry.2) :
    shape.leavesOf first = shape.leavesOf second := by
  funext path data
  have hleaves : ∀ entries,
      Shape.leaves entries first path shape = Shape.leaves entries second path shape := by
    intro entries
    rw [Shape.leaves_eq_flatMap, Shape.leaves_eq_flatMap]
    refine List.flatMap_congr fun entry hm => ?_
    exact Node.leavesUnder_eq_of_agree (Shape.agree_iff.mp h entry hm) (hnodes entry hm) _ _
  simp only [Shape.leavesOf, hleaves]

end Objects

/-- **Descriptors that agree** show the same behind a node. -/
lemma Node.nested_eq_of_agree (node : Node) (first second : Descriptor)
    (h : Node.Agree first second node) (data : Json) :
    node.nested data first = node.nested data second := by
  induction node using Node.ind generalizing first second data with
  | field role => rfl
  | one shape ih => exact congrFun (Shape.shown?_eq_of_agree h ih) data
  | many shape ih =>
      cases data with
      | array items => rw [nested_many, nested_many, Shape.shown?_eq_of_agree h ih]
      | _ => rfl

/-- **Descriptors that agree** have the same leaves behind a node. -/
lemma Node.leaves_eq_of_agree (node : Node) (first second : Descriptor)
    (h : Node.Agree first second node) (data : Json) (path : String) :
    node.leaves data first path = node.leaves data second path := by
  induction node using Node.ind generalizing first second data path with
  | field role => rfl
  | one shape ih => exact congrFun₂ (Shape.leavesOf_eq_of_agree h ih) path data
  | many shape ih =>
      cases data with
      | array items => rw [leaves_many, leaves_many, Shape.leavesOf_eq_of_agree h ih]
      | _ => rfl

/-- **Projections do not tell descriptors apart** that are below each other. -/
lemma project_eq_of_agree {node : Node} {first second : Descriptor}
    (h : Node.Agree first second node) (data : Json) (mode : ProjectionMode) :
    project data node first mode = project data node second mode := by
  have hflat : ∀ shape : Shape, Shape.Agree first second shape →
      ∀ data, Shape.flat data first shape = Shape.flat data second shape := by
    intro shape hshape data
    rw [Shape.flat_eq_merge, Shape.flat_eq_merge,
      Shape.leavesOf_eq_of_agree hshape fun entry _ => Node.leaves_eq_of_agree entry.2]
  cases mode with
  | nested => exact node.nested_eq_of_agree first second h data
  | flat =>
      cases node with
      | field role => rfl
      | one shape => simp only [project, Node.flat, hflat shape h]
      | many shape => simp only [project, Node.flat, hflat shape h]

end FieldSelection
