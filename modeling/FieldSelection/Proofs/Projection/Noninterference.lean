import FieldSelection.Projection
import FieldSelection.Proofs.Projection.Leaves

/-!
Non-interference of what is not selected.

Two values look alike through a shape and a descriptor if the objects in them agree on all
keys that are selected there: the fields are equal, and behind relations stands what looks
alike. Keys that the shape does not declare, fields that are not selected and relations that
are not followed may come and go, move and change in any of these objects
(`Shape.alike_of_hidden`).

* `Node.Alike`, `Shape.Alike`: values and objects that look alike.
* `Node.Blind`: a node that shows the same of values that look alike; every node is one
  (`Node.blind`).
* `project_eq_of_alike`: so projections do not depend on what is not selected.
-/

namespace FieldSelection

/-! ### Values that look alike -/

/-- Two values that are the same, or objects whose entries are related. -/
def Json.SameOrObjects (related : List (String × Json) → List (String × Json) → Prop)
    (first second : Json) : Prop :=
  first = second ∨ ∃ data other, first = .object data ∧ second = .object other ∧
    related data other

mutual

/-- Two values that look alike behind a node. -/
def Node.Alike (descriptor : Descriptor) (first second : Json) : Node → Prop
  | .field _ => first = second
  | .one shape =>
    Json.SameOrObjects (fun data other => Shape.Alike descriptor data other shape) first second
  | .many shape => first = second ∨ ∃ items others, first = .array items ∧
      second = .array others ∧
      List.Forall₂
        (Json.SameOrObjects fun data other => Shape.Alike descriptor data other shape)
        items others

/-- Two objects that look alike: they agree on the selected fields, and what stands behind
the relations that are followed looks alike. -/
def Shape.Alike (descriptor : Descriptor) (data other : List (String × Json)) :
    List (String × Node) → Prop
  | [] => True
  | (key, node) :: shape =>
    (if node.isField then
        descriptor.selects key = true → Entries.lookup? key data = Entries.lookup? key other
      else ∀ child, descriptor.child? key = some child →
        Option.Rel (fun first second => Node.Alike child first second node)
          (Entries.lookup? key data) (Entries.lookup? key other)) ∧
      Shape.Alike descriptor data other shape

end

namespace Shape

variable {shape : Shape} {descriptor : Descriptor} {data other : List (String × Json)}

lemma alike_iff :
    Shape.Alike descriptor data other shape ↔ ∀ entry ∈ shape,
      if entry.2.isField then descriptor.selects entry.1 = true →
        Entries.lookup? entry.1 data = Entries.lookup? entry.1 other
      else ∀ child, descriptor.child? entry.1 = some child →
        Option.Rel (fun first second => entry.2.Alike child first second)
          (Entries.lookup? entry.1 data) (Entries.lookup? entry.1 other) := by
  induction shape with
  | nil => simp [Alike]
  | cons entry shape ih => rw [Alike, ih, List.forall_mem_cons]

end Shape

lemma Json.SameOrObjects.refl {related : List (String × Json) → List (String × Json) → Prop}
    (value : Json) : Json.SameOrObjects related value value :=
  Or.inl rfl

/-- Every value looks like itself. -/
lemma Node.alike_refl (node : Node) (descriptor : Descriptor) (value : Json) :
    node.Alike descriptor value value := by
  cases node with
  | field role => exact rfl
  | one shape => exact .refl value
  | many shape => exact Or.inl rfl

/-! ### What does not show -/

/-- Whether a key is hidden in the objects of a shape: nothing that is declared under it is
selected. -/
def Shape.hides (shape : Shape) (descriptor : Descriptor) (key : String) : Bool :=
  shape.all fun entry => entry.1 ≠ key ||
    if entry.2.isField then !descriptor.selects key else (descriptor.child? key).isNone

/-- Keys that are left in are found as before. -/
lemma Entries.lookup?_filter_key {α : Type} {p : String → Bool} {key : String}
    (hkey : p key = true) (entries : List (String × α)) :
    lookup? key (entries.filter fun entry => p entry.1) = lookup? key entries := by
  induction entries with
  | nil => rfl
  | cons entry entries ih =>
      rw [List.filter_cons]
      by_cases heq : entry.1 = key
      · rw [if_pos (by rw [heq, hkey]), lookup?, lookup?, if_pos heq, if_pos heq]
      · by_cases hp : p entry.1 = true
        · rw [if_pos hp, lookup?, lookup?, if_neg heq, if_neg heq, ih]
        · rw [if_neg hp, lookup?, if_neg heq, ih]

namespace Shape

variable {shape : Shape} {descriptor : Descriptor} {data other : List (String × Json)}

/-- **Hidden keys** may be added, removed, moved and changed: objects that differ in nothing
else look alike. -/
lemma alike_of_hidden
    (h : (data.filter fun entry => !shape.hides descriptor entry.1)
      = other.filter fun entry => !shape.hides descriptor entry.1) :
    Shape.Alike descriptor data other shape := by
  have hlookup : ∀ key, shape.hides descriptor key = false →
      Entries.lookup? key data = Entries.lookup? key other := by
    intro key hkey
    have hp : (!shape.hides descriptor key) = true := by rw [hkey]; rfl
    rw [← Entries.lookup?_filter_key (p := fun key => !shape.hides descriptor key) hp data, h,
      Entries.lookup?_filter_key (p := fun key => !shape.hides descriptor key) hp other]
  have hshown : ∀ entry ∈ shape,
      (if entry.2.isField then !descriptor.selects entry.1
        else (descriptor.child? entry.1).isNone) = false →
      shape.hides descriptor entry.1 = false := by
    intro entry hm hentry
    refine List.all_eq_false.mpr ⟨entry, hm, ?_⟩
    simp [hentry]
  refine alike_iff.mpr fun entry hm => ?_
  cases hfield : entry.2.isField with
  | true =>
      intro hselects
      exact hlookup entry.1 (hshown entry hm (by simp [hfield, hselects]))
  | false =>
      intro child hchild
      rw [hlookup entry.1 (hshown entry hm (by simp [hfield, hchild]))]
      cases Entries.lookup? entry.1 other with
      | none => exact .none
      | some value => exact .some (entry.2.alike_refl child value)

end Shape

/-! ### Nodes that show the same -/

/-- Whether a node shows the same of values that look alike, and has the same leaves there. -/
def Node.Blind (node : Node) : Prop :=
  ∀ (descriptor : Descriptor) (first second : Json), node.Alike descriptor first second →
    node.nested first descriptor = node.nested second descriptor ∧
      ∀ path, node.leaves first descriptor path = node.leaves second descriptor path

namespace Shape

variable {shape : Shape} {descriptor : Descriptor} {data other : List (String × Json)}

/-- Under the key of a node the same is kept of objects that look alike. -/
lemma entry_eq_of_alike (hnodes : ∀ entry ∈ shape, entry.2.Blind)
    (h : Shape.Alike descriptor data other shape) {entry : String × Node} (hm : entry ∈ shape) :
    entry.2.shown? data descriptor entry.1 = entry.2.shown? other descriptor entry.1 ∧
      ∀ path, entry.2.leavesUnder data descriptor path entry.1
        = entry.2.leavesUnder other descriptor path entry.1 := by
  have hentry := alike_iff.mp h entry hm
  simp only [Node.shown?, Node.leavesUnder]
  cases hfield : entry.2.isField with
  | true =>
      rw [hfield, if_pos rfl] at hentry
      cases hselects : descriptor.selects entry.1 with
      | false => exact ⟨rfl, fun path => rfl⟩
      | true => simp only [if_true, hentry hselects, and_self, implies_true]
  | false =>
      rw [hfield, if_neg Bool.false_ne_true] at hentry
      cases hchild : descriptor.child? entry.1 with
      | none => exact ⟨rfl, fun path => rfl⟩
      | some child =>
          have hvalues := hentry child hchild
          generalize Entries.lookup? entry.1 data = found at hvalues ⊢
          generalize Entries.lookup? entry.1 other = found' at hvalues ⊢
          cases hvalues with
          | none => exact ⟨rfl, fun path => rfl⟩
          | some hsame =>
              obtain ⟨hnested, hleaves⟩ := hnodes entry hm child _ _ hsame
              exact ⟨hnested, fun path => hleaves (joinSegment path entry.1)⟩

/-- **Objects that look alike** show the same and have the same leaves. -/
lemma eq_of_sameOrObjects (hnodes : ∀ entry ∈ shape, entry.2.Blind) {first second : Json}
    (h : Json.SameOrObjects (fun data other => Shape.Alike descriptor data other shape)
      first second) :
    shape.shown? descriptor first = shape.shown? descriptor second ∧
      ∀ path, shape.leavesOf descriptor path first = shape.leavesOf descriptor path second := by
  obtain rfl | ⟨data, other, rfl, rfl, halike⟩ := h
  · exact ⟨rfl, fun path => rfl⟩
  have hentries : ∀ entry ∈ shape,
      entry.2.shown? data descriptor entry.1 = entry.2.shown? other descriptor entry.1 ∧
        ∀ path, entry.2.leavesUnder data descriptor path entry.1
          = entry.2.leavesUnder other descriptor path entry.1 :=
    fun entry hm => entry_eq_of_alike hnodes halike hm
  have hkept : kept data descriptor shape = kept other descriptor shape := by
    rw [kept_eq_filterMap, kept_eq_filterMap]
    exact List.filterMap_congr fun entry hm => by rw [(hentries entry hm).1]
  have hleaves (path : String) :
      leaves data descriptor path shape = leaves other descriptor path shape := by
    rw [leaves_eq_flatMap, leaves_eq_flatMap]
    exact List.flatMap_congr fun entry hm => (hentries entry hm).2 path
  exact ⟨congrArg Json.ofKept hkept, hleaves⟩

/-- What projections see of one object: what is shown of it, and its leaves below any path. -/
def view (shape : Shape) (descriptor : Descriptor) (data : Json) :
    Option Json × (String → List (String × Json)) :=
  (shape.shown? descriptor data, fun path => shape.leavesOf descriptor path data)

/-- Arrays of objects that look alike are seen as the same. -/
lemma map_view_eq (hnodes : ∀ entry ∈ shape, entry.2.Blind) {items others : List Json}
    (h : List.Forall₂ (Json.SameOrObjects fun data other => Shape.Alike descriptor data other shape)
      items others) :
    items.map (shape.view descriptor) = others.map (shape.view descriptor) := by
  induction h with
  | nil => rfl
  | cons hitem _ ih =>
      obtain ⟨hshown, hleaves⟩ := eq_of_sameOrObjects hnodes hitem
      rw [List.map_cons, List.map_cons, ih, view, view, hshown, funext hleaves]

/-- The projection behind a relation to many objects sees no more of them than that. -/
lemma nested_many_eq_view (items : List Json) :
    Node.nested (.array items) descriptor (.many shape)
      = some (.array ((items.map (shape.view descriptor)).filterMap Prod.fst)) := by
  rw [Node.nested_many, List.filterMap_map]
  rfl

/-- The leaves behind a relation to many objects depend on no more of them than that. -/
lemma leaves_many_eq_view (items : List Json) (path : String) :
    Node.leaves (.array items) descriptor path (.many shape)
      = (items.map (shape.view descriptor)).zipIdx.flatMap fun item =>
          item.1.2 (joinSegment path (toString item.2)) := by
  rw [Node.leaves_many, List.zipIdx_map, List.flatMap_map]
  rfl

/-- The flat projection of an object depends on no more of it than that. -/
lemma flat_eq_view (data : Json) :
    flat data descriptor shape = .object (Entries.merge ((shape.view descriptor data).2 "")) :=
  flat_eq_merge shape descriptor data

end Shape

/-- **Every node** shows the same of values that look alike. -/
lemma Node.blind (node : Node) : node.Blind := by
  induction node using Node.ind with
  | field role =>
      rintro descriptor first _ rfl
      exact ⟨rfl, fun path => rfl⟩
  | one shape ih => exact fun descriptor first second h => Shape.eq_of_sameOrObjects ih h
  | many shape ih =>
      intro descriptor first second h
      obtain rfl | ⟨items, others, rfl, rfl, hitems⟩ := h
      · exact ⟨rfl, fun path => rfl⟩
      have hview := Shape.map_view_eq ih hitems
      constructor
      · rw [Shape.nested_many_eq_view, Shape.nested_many_eq_view, hview]
      · intro path
        rw [Shape.leaves_many_eq_view, Shape.leaves_many_eq_view, hview]

/-! ### Projections -/

/-- The flat projections of values that look alike are the same. -/
lemma Node.flat_eq_of_alike {node : Node} {descriptor : Descriptor} {first second : Json}
    (h : node.Alike descriptor first second) :
    node.flat first descriptor = node.flat second descriptor := by
  cases node with
  | field role => rfl
  | one shape =>
      have hleaves := (Shape.eq_of_sameOrObjects (fun entry _ => entry.2.blind) h).2 ""
      have hflat : Shape.flat first descriptor shape = Shape.flat second descriptor shape := by
        rw [Shape.flat_eq_merge, Shape.flat_eq_merge, hleaves]
      obtain rfl | ⟨data, other, rfl, rfl, -⟩ := h
      · rfl
      · exact congrArg some hflat
  | many shape =>
      obtain rfl | ⟨items, others, rfl, rfl, hitems⟩ := h
      · rfl
      have hview := Shape.map_view_eq (fun entry _ => entry.2.blind) hitems
      have hflat : ∀ items : List Json,
          (items.map fun item => Shape.flat item descriptor shape)
            = (items.map (Shape.view shape descriptor)).map fun seen =>
                .object (Entries.merge (seen.2 "")) := by
        intro items
        rw [List.map_map]
        exact List.map_congr_left fun item _ => Shape.flat_eq_view item
      rw [flat, flat, hflat, hflat, hview]

/-- **Non-interference.** Projections, nested or flat, of values that look alike are the
same: the same values under the same keys in the same order, or absent both. -/
theorem project_eq_of_alike {node : Node} {descriptor : Descriptor} {first second : Json}
    (h : node.Alike descriptor first second) (mode : ProjectionMode) :
    project first node descriptor mode = project second node descriptor mode := by
  cases mode with
  | nested => exact (node.blind descriptor first second h).1
  | flat => exact Node.flat_eq_of_alike h

/-- Invoices with their customers, their lines and notes on them. -/
def invoice : Node :=
  .one [("number", .field none), ("customer", .one [("name", .field none), ("mail", .field none)]),
    ("lines", .many [("article", .field none), ("price", .field none)]),
    ("notes", .many [("text", .field none)])]

/-- The number, the name of the customer and the articles, but no notes. -/
def invoiceSelection : Descriptor where
  attributes := ["number"]
  includes := [{ attributes := ["name"], association := some "customer" },
    { attributes := ["article"], association := some "lines" }]

/-- An invoice. -/
def invoiceData : Json :=
  .object [("number", .int 1),
    ("customer", .object [("name", .string "Ann"), ("mail", .string "a@b")]),
    ("lines", .array [.object [("article", .string "pen"), ("price", .int 2)], .null]),
    ("notes", .array [.object [("text", .string "late")]])]

/-- The invoice with other mail, prices and notes, with a secret, and with the keys moved. -/
def invoiceVariant : Json :=
  .object [("notes", .null), ("secret", .int 7),
    ("lines", .array [.object [("price", .int 3), ("secret", .null), ("article", .string "pen")],
      .null]),
    ("customer", .object [("name", .string "Ann")]), ("number", .int 1)]

lemma invoice_alike : invoice.Alike invoiceSelection invoiceData invoiceVariant := by
  have hcustomer : Node.Alike { attributes := ["name"], association := some "customer" }
      (.object [("name", .string "Ann"), ("mail", .string "a@b")])
      (.object [("name", .string "Ann")]) (.one [("name", .field none), ("mail", .field none)]) :=
    Or.inr ⟨_, _, rfl, rfl, Shape.alike_of_hidden (by decide)⟩
  have hline : Node.Alike { attributes := ["article"], association := some "lines" }
      (.array [.object [("article", .string "pen"), ("price", .int 2)], .null])
      (.array [.object [("price", .int 3), ("secret", .null), ("article", .string "pen")], .null])
      (.many [("article", .field none), ("price", .field none)]) :=
    Or.inr ⟨_, _, rfl, rfl, .cons (Or.inr ⟨_, _, rfl, rfl, Shape.alike_of_hidden (by decide)⟩)
      (.cons (.refl _) .nil)⟩
  refine Or.inr ⟨_, _, rfl, rfl, fun _ => rfl, ?_, ?_, ?_, trivial⟩
  · rintro child ⟨⟩
    exact .some hcustomer
  · rintro child ⟨⟩
    exact .some hline
  · rintro child ⟨⟩

/-- What is shown of both, nested and flat. -/
theorem project_eq_of_alike_invoice :
    invoice.Alike invoiceSelection invoiceData invoiceVariant ∧ ∀ mode,
      project invoiceData invoice invoiceSelection mode
        = project invoiceVariant invoice invoiceSelection mode :=
  ⟨invoice_alike, project_eq_of_alike invoice_alike⟩

end FieldSelection
