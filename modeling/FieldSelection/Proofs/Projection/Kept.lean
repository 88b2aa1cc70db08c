import FieldSelection.Projection.Nested
import FieldSelection.Proofs.Shape.Distinct

/-!
What nested projections keep.

The entries that are kept of an object are found entry by entry of its shape, so that what
stands under one key does not depend on what stands under another one.

* `Node.shown?`: what is kept of an object under the key of a node.
* `Shape.kept_eq_filterMap`, `Shape.lookup?_kept`: the kept entries, all of them and one
  by its key; `Shape.keys_kept_sublist`: they stand in the order of the shape.
* `Shape.shown?`: the projection of one object, and with it the one behind a relation.
-/

namespace FieldSelection

/-- An object is made of entries if there are any. -/
lemma Json.ofKept_eq_some_iff {entries : List (String × Json)} {value : Json} :
    Json.ofKept entries = some value ↔ entries ≠ [] ∧ value = .object entries := by
  cases entries <;> simp [ofKept, eq_comm]

/-! ### The entries of one object -/

/-- A node is a field or a relation. -/
lemma Node.isField_or_isRelation (node : Node) :
    node.isField = true ∨ node.isRelation = true := by
  cases node with
  | field role => exact Or.inl rfl
  | one shape => exact Or.inr rfl
  | many shape => exact Or.inr rfl

/-- What is kept of the entries of an object under the key of a node. -/
def Node.shown? (data : List (String × Json)) (descriptor : Descriptor) (key : String)
    (node : Node) : Option Json :=
  if node.isField then
    if descriptor.selects key then Entries.lookup? key data else none
  else
    (descriptor.child? key).bind fun child =>
      (Entries.lookup? key data).bind fun value => node.nested value child

namespace Node

variable {data : List (String × Json)} {descriptor : Descriptor} {key : String} {node : Node}
  {value : Json}

lemma shown?_of_isField (h : node.isField = true) :
    node.shown? data descriptor key
      = if descriptor.selects key then Entries.lookup? key data else none :=
  if_pos h

lemma shown?_of_isRelation (h : node.isRelation = true) :
    node.shown? data descriptor key
      = (descriptor.child? key).bind fun child =>
          (Entries.lookup? key data).bind fun value => node.nested value child :=
  if_neg (by simpa [isRelation] using h)

/-- A field is kept as it is. -/
lemma shown?_eq_some_of_isField (h : node.isField = true) :
    node.shown? data descriptor key = some value ↔
      descriptor.selects key = true ∧ Entries.lookup? key data = some value := by
  rw [shown?_of_isField h]
  split
  · next hselects => simp [hselects]
  · next hselects => simp [hselects]

/-- Behind a relation the projection of what stands there is kept. -/
lemma shown?_eq_some_of_isRelation (h : node.isRelation = true) :
    node.shown? data descriptor key = some value ↔
      ∃ child source, descriptor.child? key = some child ∧
        Entries.lookup? key data = some source ∧ node.nested source child = some value := by
  simp [shown?_of_isRelation h, Option.bind_eq_some_iff]

/-- Behind a relation something is kept exactly if the projection of what stands there is
not absent. -/
lemma isSome_shown?_of_isRelation (h : node.isRelation = true) :
    (node.shown? data descriptor key).isSome = true ↔
      ∃ child source, descriptor.child? key = some child ∧
        Entries.lookup? key data = some source ∧ (node.nested source child).isSome = true := by
  simp only [Option.isSome_iff_exists, shown?_eq_some_of_isRelation h]
  constructor
  · rintro ⟨value, child, source, hchild, hsource, hvalue⟩
    exact ⟨child, source, hchild, hsource, value, hvalue⟩
  · rintro ⟨child, source, hchild, hsource, value, hvalue⟩
    exact ⟨value, child, source, hchild, hsource, hvalue⟩

end Node

namespace Shape

lemma kept_eq_filterMap (data : List (String × Json)) (descriptor : Descriptor) (shape : Shape) :
    kept data descriptor shape
      = shape.filterMap fun entry =>
          (entry.2.shown? data descriptor entry.1).map (entry.1, ·) := by
  induction shape with
  | nil => rw [kept, List.filterMap_nil]
  | cons entry shape ih =>
      obtain ⟨key, node⟩ := entry
      -- both sides ask the same questions, and drop the entry at the first `none`
      rw [kept, List.filterMap_cons, ih, Node.shown?]
      cases hfield : node.isField with
      | true =>
          simp only [if_true]
          cases (if descriptor.selects key then Entries.lookup? key data else none) <;> rfl
      | false =>
          simp only [Bool.false_eq_true, if_false]
          cases descriptor.child? key with
          | none => rfl
          | some child =>
              cases Entries.lookup? key data with
              | none => rfl
              | some value =>
                  simp only [Option.bind_some]
                  cases node.nested value child <;> rfl

/-- What is found under a key of what is kept. -/
lemma lookup?_kept {shape : Shape} (hn : (Entries.keys shape).Nodup) {key : String} {node : Node}
    (hm : (key, node) ∈ shape) (data : List (String × Json)) (descriptor : Descriptor) :
    Entries.lookup? key (kept data descriptor shape) = node.shown? data descriptor key := by
  rw [kept_eq_filterMap,
    Entries.lookup?_filterMap hn (fun key node => node.shown? data descriptor key),
    Entries.lookup?_of_mem hn hm, Option.bind_some]

/-- What is kept stands in the order of the shape. -/
lemma keys_kept_sublist (data : List (String × Json)) (descriptor : Descriptor) (shape : Shape) :
    (Entries.keys (kept data descriptor shape)).Sublist (Entries.keys shape) := by
  rw [kept_eq_filterMap]
  exact Entries.keys_filterMap_sublist shape fun entry => entry.2.shown? data descriptor entry.1

/-- Something is kept of an object exactly if something is kept under a key. -/
lemma kept_ne_nil_iff {data : List (String × Json)} {descriptor : Descriptor} {shape : Shape} :
    kept data descriptor shape ≠ [] ↔
      ∃ entry ∈ shape, (entry.2.shown? data descriptor entry.1).isSome = true := by
  simp [kept_eq_filterMap, List.filterMap_eq_nil_iff, Option.isSome_iff_ne_none]

/-- Nothing is kept of an object without entries. -/
lemma kept_nil (descriptor : Descriptor) (shape : Shape) : kept [] descriptor shape = [] := by
  rw [kept_eq_filterMap, List.filterMap_eq_nil_iff]
  intro entry _
  simp [Node.shown?]

/-- The projection of one object. -/
def shown? (shape : Shape) (descriptor : Descriptor) (data : Json) : Option Json :=
  data.entries?.bind fun entries => Json.ofKept (kept entries descriptor shape)

/-- The projection of an object is what is kept of it, if that is anything. -/
lemma shown?_eq_some_iff {shape : Shape} {descriptor : Descriptor} {data result : Json} :
    shape.shown? descriptor data = some result ↔
      ∃ entries, data = .object entries ∧ kept entries descriptor shape ≠ [] ∧
        result = .object (kept entries descriptor shape) := by
  cases data with
  | object entries =>
      rw [shown?, Json.entries?, Option.bind_some, Json.ofKept_eq_some_iff]
      simp
  | _ => simp [shown?, Json.entries?]

end Shape

/-- The projection behind a relation to one object. -/
lemma Node.nested_one (shape : Shape) (data : Json) (descriptor : Descriptor) :
    Node.nested data descriptor (.one shape) = shape.shown? descriptor data :=
  rfl

/-- The projection behind a relation to many objects: elements that show nothing are left
out. -/
lemma Node.nested_many (shape : Shape) (items : List Json) (descriptor : Descriptor) :
    Node.nested (.array items) descriptor (.many shape)
      = some (.array (items.filterMap (shape.shown? descriptor))) :=
  rfl

end FieldSelection
