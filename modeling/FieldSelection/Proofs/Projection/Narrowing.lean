import FieldSelection.Projection
import FieldSelection.Proofs.Projection.Kept
import FieldSelection.Proofs.Shape.Declared

/-!
Narrowing of nested projections.

What a descriptor shows of data can be cut down further by a narrower descriptor. The
result is what the narrower one shows of the data itself: nothing that is dropped on the
way was going to be shown. Shapes have no key twice (`Node.distinct_of_parse`,
`Shape.Distinct.insert`), so that what was kept under a key is found there again.

* `Node.Below`, `Shape.Below`: a descriptor selects no more than another one wherever a
  shape leads.
* `Node.Narrows`, `kept_kept`: narrowing behind a node, and of the entries of one object.
* `project_project`: narrowing of projections, and their idempotence.
-/

namespace FieldSelection

/-! ### Narrower descriptors -/

mutual

/-- The first descriptor selects no more than the second one of what a node leads to. -/
def Node.Below (narrow wide : Descriptor) : Node → Prop
  | .field _ => True
  | .one shape | .many shape => Shape.Below narrow wide shape

/-- The first descriptor selects no more than the second one of the entries of a shape:
it keeps no other fields, and it follows no other relations and selects no more behind
them. -/
def Shape.Below (narrow wide : Descriptor) : List (String × Node) → Prop
  | [] => True
  | (key, node) :: shape =>
    (if node.isField then narrow.selects key = true → wide.selects key = true
      else ∀ child, narrow.child? key = some child →
        ∃ other, wide.child? key = some other ∧ Node.Below child other node) ∧
      Shape.Below narrow wide shape

end

section Decidable

variable {α : Type} {P : α → α → Prop}

/-- Whether one optional value leads to another one that it is related to. -/
instance decideFollows (first second : Option α) [∀ a b, Decidable (P a b)] :
    Decidable (∀ a, first = some a → ∃ b, second = some b ∧ P a b) :=
  match first, second with
  | none, _ => isTrue (by simp)
  | some _, none => isFalse (by simp)
  | some a, some b => decidable_of_iff (P a b) (by simp)

end Decidable

mutual

/-- Whether a descriptor is below another one on a node can be decided. -/
def Node.decideBelow (narrow wide : Descriptor) :
    (node : Node) → Decidable (Node.Below narrow wide node)
  | .field _ => isTrue trivial
  | .one shape | .many shape => Shape.decideBelow narrow wide shape

/-- Whether a descriptor is below another one on a shape can be decided. -/
def Shape.decideBelow (narrow wide : Descriptor) :
    (shape : List (String × Node)) → Decidable (Shape.Below narrow wide shape)
  | [] => isTrue trivial
  | (_, node) :: shape =>
    have := fun child other => Node.decideBelow child other node
    have := Shape.decideBelow narrow wide shape
    inferInstanceAs (Decidable ((if node.isField then _ else _) ∧ _))

end

instance (narrow wide : Descriptor) (node : Node) : Decidable (Node.Below narrow wide node) :=
  Node.decideBelow narrow wide node

/-- What a descriptor that is below another one selects of an entry. -/
lemma Shape.below_iff {narrow wide : Descriptor} {shape : Shape} :
    Shape.Below narrow wide shape ↔ ∀ entry ∈ shape,
      if entry.2.isField then narrow.selects entry.1 = true → wide.selects entry.1 = true
      else ∀ child, narrow.child? entry.1 = some child →
        ∃ other, wide.child? entry.1 = some other ∧ Node.Below child other entry.2 := by
  induction shape with
  | nil => simp [Below]
  | cons entry shape ih => rw [Below, ih, List.forall_mem_cons]

/-- Every descriptor is below itself. -/
lemma Node.below_refl (node : Node) (descriptor : Descriptor) :
    Node.Below descriptor descriptor node := by
  have hshape : ∀ shape : Shape,
      (∀ entry ∈ shape, ∀ descriptor, Node.Below descriptor descriptor entry.2) →
      ∀ descriptor, Shape.Below descriptor descriptor shape := by
    intro shape hnodes descriptor
    refine Shape.below_iff.mpr fun entry hm => ?_
    split
    · exact id
    · exact fun child hchild => ⟨child, hchild, hnodes entry hm child⟩
  induction node using Node.ind generalizing descriptor with
  | field role => trivial
  | one shape ih => exact hshape shape ih descriptor
  | many shape ih => exact hshape shape ih descriptor

/-! ### Narrowing -/

/-- Whether narrowing what a node shows leads where the narrower descriptor leads at
once. -/
def Node.Narrows (node : Node) : Prop :=
  ∀ narrow wide : Descriptor, Node.Below narrow wide node → ∀ data,
    (node.nested data wide).bind (fun shown => node.nested shown narrow) = node.nested data narrow

namespace Shape

variable {shape : Shape} {narrow wide : Descriptor}

/-- Under a key of the shape, as much is shown of what the wider descriptor kept as of the
object itself. -/
lemma shown?_kept (hn : (Entries.keys shape).Nodup) (hbelow : Shape.Below narrow wide shape)
    {key : String} {node : Node} (hm : (key, node) ∈ shape) (hnode : node.Narrows)
    (data : List (String × Json)) :
    node.shown? (kept data wide shape) narrow key = node.shown? data narrow key := by
  have hentry := below_iff.mp hbelow (key, node) hm
  rw [Node.shown?, Node.shown?, lookup?_kept hn hm, Node.shown?]
  cases hfield : node.isField with
  | true =>
      rw [hfield, if_pos rfl] at hentry
      cases hselects : narrow.selects key with
      | false => rfl
      | true =>
          have hwide : wide.selects key = true := hentry hselects
          simp [hwide]
  | false =>
      rw [hfield, if_neg Bool.false_ne_true] at hentry
      cases hchild : narrow.child? key with
      | none => rfl
      | some child =>
          obtain ⟨other, hother, hchildBelow⟩ := hentry child hchild
          simp only [Bool.false_eq_true, if_false, hother, Option.bind_some, Option.bind_assoc,
            hnode child other hchildBelow]

/-- **Narrowing the entries of an object** keeps what the narrower descriptor keeps of the
object itself. -/
lemma kept_kept (hn : (Entries.keys shape).Nodup) (hnodes : ∀ entry ∈ shape, entry.2.Narrows)
    (hbelow : Shape.Below narrow wide shape) (data : List (String × Json)) :
    kept (kept data wide shape) narrow shape = kept data narrow shape := by
  rw [kept_eq_filterMap (kept data wide shape), kept_eq_filterMap data narrow]
  refine List.filterMap_congr fun entry hm => ?_
  rw [shown?_kept hn hbelow hm (hnodes entry hm)]

/-- An object that would be empty is absent, and nothing would have been shown of it. -/
lemma ofKept_bind_shown? (descriptor : Descriptor) (entries : List (String × Json)) :
    (Json.ofKept entries).bind (shape.shown? descriptor)
      = Json.ofKept (kept entries descriptor shape) := by
  cases entries with
  | nil =>
      rw [kept_nil]
      rfl
  | cons entry rest => rfl

/-- Narrowing one object. -/
lemma shown?_shown? (hn : (Entries.keys shape).Nodup)
    (hnodes : ∀ entry ∈ shape, entry.2.Narrows) (hbelow : Shape.Below narrow wide shape)
    (data : Json) :
    (shape.shown? wide data).bind (shape.shown? narrow) = shape.shown? narrow data :=
  calc (shape.shown? wide data).bind (shape.shown? narrow)
      = data.entries?.bind fun entries =>
          (Json.ofKept (kept entries wide shape)).bind (shape.shown? narrow) :=
        Option.bind_assoc ..
    _ = data.entries?.bind fun entries =>
          Json.ofKept (kept (kept entries wide shape) narrow shape) := by
        simp only [ofKept_bind_shown?]
    _ = shape.shown? narrow data := by
        simp only [kept_kept hn hnodes hbelow]
        rfl

end Shape

/-- **Every node without repeated keys** narrows: elements of an array that are dropped in
the first step would have been dropped in the second. -/
lemma Node.narrows (node : Node) (hn : node.Distinct) : node.Narrows := by
  induction node, hn using Node.Distinct.ind with
  | field role h => exact fun narrow wide _ data => rfl
  | one shape h hkeys ih => exact fun narrow wide hbelow => Shape.shown?_shown? hkeys ih hbelow
  | many shape h hkeys ih =>
      intro narrow wide hbelow data
      cases data with
      | array items =>
          have hitems := Shape.shown?_shown? hkeys ih hbelow
          simp only [nested_many, Option.bind_some, List.filterMap_filterMap, hitems]
      | _ => rfl

/-- **Narrowing of projections.** Projecting with a descriptor and then with one below it
is projecting with the narrower one at once, absent data included. So projecting twice is
projecting once. -/
theorem project_project {node : Node} (hn : node.Distinct) (data : Json) :
    (∀ narrow wide : Descriptor, Node.Below narrow wide node →
      (project data node wide .nested).bind (fun shown => project shown node narrow .nested)
        = project data node narrow .nested) ∧
      ∀ descriptor : Descriptor,
        (project data node descriptor .nested).bind
            (fun shown => project shown node descriptor .nested)
          = project data node descriptor .nested := by
  have hnarrows : node.Narrows := Node.narrows node hn
  constructor
  · intro narrow wide hbelow
    exact hnarrows narrow wide hbelow data
  · intro descriptor
    exact hnarrows descriptor descriptor (Node.below_refl node descriptor) data

/-- Shelves of books with their authors and tags. -/
def shelf : Node :=
  .many [("title", .field none), ("author", .one [("name", .field none), ("mail", .field none)]),
    ("tags", .many [("label", .field none)])]

/-- A shelf with gaps: an element that is no book, and books without title, author or
tags. -/
def shelfData : Json :=
  .array [.null, .object [("title", .string "Emma"), ("tags", .array [.null])],
    .object [("tags", .array [.object [("label", .string "old")]])],
    .object [("author", .object [("mail", .string "a@b"), ("name", .string "Ann")])]]

/-- Titles and names of authors. -/
def titles : Descriptor where
  attributes := ["title"]
  includes := [{ attributes := ["name"], association := some "author" }]

/-- Titles and names of authors, out of everything that is on a shelf. -/
theorem project_project_shelf :
    shelf.Distinct ∧ Node.Below titles .everything shelf ∧
      (project shelfData shelf .everything .nested).bind
          (fun shown => project shown shelf titles .nested)
        = some (.array [.object [("title", .string "Emma")],
            .object [("author", .object [("name", .string "Ann")])]]) :=
  ⟨by decide, by decide,
    ((project_project (by decide) shelfData).1 titles .everything (by decide)).trans rfl⟩

end FieldSelection
