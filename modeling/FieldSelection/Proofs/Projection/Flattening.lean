import FieldSelection.Projection
import FieldSelection.Proofs.Compiler.Containment
import FieldSelection.Proofs.Json.Merge
import FieldSelection.Proofs.Projection.Dotted

/-!
Flat projections and the leaves of nested ones.

A flat projection puts every leaf of the nested one into one object, under the dotted path
of its place in the data. Where two paths are the same the later leaf replaces the earlier
one. Without dots in the keys that does not happen.

* `Node.flatEntries`: the leaves of a nested projection as entries of a flat object.
* `Shape.flat_eq_merge_flatEntries`, `Shape.nodup_keys_flatEntries`: a flat object is made
  of these entries, and their keys are different unless there are dots in the keys.
* `project_flat_eq_leaves`: so flat projections agree with nested ones.
* `filterTop_flat_length_eq_iff`: the flat result of a query has all leaves exactly if all
  their paths are different; `filterTop_flat_overwrites` is a result that lacks one.
-/

namespace FieldSelection

/-! ### Flat objects -/

/-- The leaves of a nested projection as entries of a flat object, each under the dotted
path of its origin in the data. -/
def Node.flatEntries (node : Node) (descriptor : Descriptor) (data : Json) :
    List (String × Json) :=
  (node.shownLeaves (project data node descriptor .nested)).map fun leaf =>
    (leaf.atOrigin node descriptor data).flatEntry

namespace Shape

variable {shape : Shape} {descriptor : Descriptor}

/-- The entries are the kept fields of the object under their paths. -/
lemma flatEntries_eq_map (hn : Node.Distinct (.one shape)) (data : Json) :
    (Node.one shape).flatEntries descriptor data
      = (shape.routesOf descriptor data).map Leaf.flatEntry := by
  rw [← Node.routes_one, (Node.one shape).routes_eq_map_origin hn, List.map_map]
  rfl

/-- A flat object is made of the entries. -/
lemma flat_eq_merge_flatEntries (hn : Node.Distinct (.one shape))
    (hroot : "" ∈ Entries.keys shape → descriptor.child? "" = none) (data : Json) :
    flat data descriptor shape
      = .object (Entries.merge ((Node.one shape).flatEntries descriptor data)) := by
  rw [flat_eq_merge, leavesOf_eq_map_flatEntry hroot, flatEntries_eq_map hn]

/-- Without dots in the keys no two entries have the same path. -/
lemma nodup_keys_flatEntries (hn : Node.Distinct (.one shape))
    (hkeys : Node.AllKeys (fun key => '.' ∉ key.toList) (.one shape)) (data : Json) :
    (Entries.keys ((Node.one shape).flatEntries descriptor data)).Nodup := by
  rw [flatEntries_eq_map hn]
  exact nodup_keys_map_flatEntry hn hkeys data

/-- Where keys are not empty and have no dots, a flat object has one entry for each leaf. -/
lemma flat_eq_flatEntries (hn : Node.Distinct (.one shape))
    (hkeys : Node.AllKeys (fun key => key ≠ "" ∧ '.' ∉ key.toList) (.one shape))
    (descriptor : Descriptor) (data : Json) :
    flat data descriptor shape = .object ((Node.one shape).flatEntries descriptor data) ∧
      (Entries.keys ((Node.one shape).flatEntries descriptor data)).Nodup := by
  have hnonempty : "" ∉ Entries.keys shape := fun hm => ((hkeys shape rfl).here "" hm).1 rfl
  have hnodup : (Entries.keys ((Node.one shape).flatEntries descriptor data)).Nodup :=
    nodup_keys_flatEntries hn (hkeys.imp fun _ h => h.2) data
  rw [flat_eq_merge_flatEntries hn (absurd · hnonempty), Entries.merge_of_nodup hnodup]
  exact ⟨rfl, hnodup⟩

end Shape

/-! ### Flat and nested projections -/

/-- Whether a root shows nothing of a value in any layout. -/
def Node.Refuses (node : Node) (data : Json) : Prop :=
  data = .null ∨ (∃ role, node = .field role) ∨
    ∃ shape, node = .many shape ∧ ∀ items, data ≠ .array items

/-- What a root refuses is absent. -/
lemma Node.Refuses.project_eq_none {node : Node} {data : Json} (h : node.Refuses data)
    (descriptor : Descriptor) (mode : ProjectionMode) :
    project data node descriptor mode = none := by
  rcases h with rfl | ⟨role, rfl⟩ | ⟨shape, rfl, harray⟩
  · cases node <;> cases mode <;> rfl
  · cases mode <;> rfl
  · cases data with
    | array items => exact absurd rfl (harray items)
    | _ => cases mode <;> rfl

/-- **Flat projections agree with nested ones**, if no key is empty or has a dot. One object
becomes the leaves of its nested projection, each under the dotted path of its place in the
data and no two under the same; an array becomes one such object for each element. What is
absent is absent in both layouts. -/
theorem project_flat_eq_leaves {node : Node} (hn : node.Distinct)
    (hkeys : node.AllKeys fun key => key ≠ "" ∧ '.' ∉ key.toList) (descriptor : Descriptor)
    (data : Json) :
    (∀ shape, node = .one shape → data ≠ .null →
      project data node descriptor .flat
          = some (.object (node.flatEntries descriptor data)) ∧
        (Entries.keys (node.flatEntries descriptor data)).Nodup) ∧
      (∀ shape items, node = .many shape → data = .array items →
        project data node descriptor .flat
            = some (.array (items.map fun item =>
                .object ((Node.one shape).flatEntries descriptor item))) ∧
          ∀ item ∈ items,
            (Entries.keys ((Node.one shape).flatEntries descriptor item)).Nodup) ∧
      (node.Refuses data → ∀ mode, project data node descriptor mode = none) := by
  refine ⟨?one, ?many, fun h => h.project_eq_none descriptor⟩
  case one =>
    rintro shape rfl hdata
    obtain ⟨hflat, hnodup⟩ := Shape.flat_eq_flatEntries hn hkeys descriptor data
    exact ⟨by rw [project, Node.flat, if_neg hdata, hflat], hnodup⟩
  case many =>
    rintro shape items rfl rfl
    -- the levels behind the root are those of one object
    have hone : Node.AllKeys (fun key => key ≠ "" ∧ '.' ∉ key.toList) (.one shape) := hkeys
    have hitems := Shape.flat_eq_flatEntries hn hone descriptor
    refine ⟨?_, fun item _ => (hitems item).2⟩
    rw [project, Node.flat]
    simp only [(hitems _).1]

/-- Albums with their labels and their tracks, the tracks with their guests. -/
def albumNode : Node :=
  .one [("title", .field none), ("label", .one [("name", .field none)]),
    ("tracks", .many [("title", .field none), ("guests", .many [("name", .field none)])])]

/-- An album with a track of which nothing is known, and one of which only a guest is. -/
def albumData : Json :=
  .object [("tracks", .array [.int 7,
      .object [("guests", .array [.null, .object [("name", .string "Bo")]])],
      .object [("title", .string "Low")]]),
    ("title", .string "Night"), ("label", .object [("name", .string "Blue")])]

/-- Of the tracks two are left in the nested result, and of the guests one. The paths have
their places in the data. -/
theorem project_flat_eq_leaves_album :
    albumNode.Distinct ∧ (albumNode.AllKeys fun key => key ≠ "" ∧ '.' ∉ key.toList) ∧
      project albumData albumNode .everything .nested
        = some (.object [("title", .string "Night"),
            ("label", .object [("name", .string "Blue")]),
            ("tracks", .array [.object [("guests", .array [.object [("name", .string "Bo")]])],
              .object [("title", .string "Low")]])]) ∧
      project albumData albumNode .everything .flat
        = some (.object [("title", .string "Night"), ("label.name", .string "Blue"),
            ("tracks.1.guests.1.name", .string "Bo"), ("tracks.2.title", .string "Low")]) := by
  have hn : albumNode.Distinct := by decide
  have hkeys : albumNode.AllKeys fun key => key ≠ "" ∧ '.' ∉ key.toList := by decide
  refine ⟨hn, hkeys, by decide, ?_⟩
  have hone := (project_flat_eq_leaves hn hkeys .everything albumData).1
  rw [(hone _ rfl (by decide)).1]
  decide

/-! ### The flat results of queries -/

/-- The entries of a result that may be absent, or no object. -/
def Json.entriesOf (shown : Option Json) : List (String × Json) :=
  (shown.bind Json.entries?).getD []

/-- A descriptor that was compiled against a shape follows no relation without a name. -/
lemma child?_compile_empty (query : Query) (shape : Shape) :
    (compile query (some shape)).child? "" = none := by
  rw [← Descriptor.child?_bare, compile, Compiler.bare_compile, Descriptor.child?]
  split
  · next child hchild =>
    obtain ⟨next, -, hnext, -⟩ := include?_compiled hchild
    exact absurd rfl (Place.enter?_eq_some_iff.mp hnext).1
  · rw [(Place.insideShape_compiled rfl).includeAll]
    rfl

section Query

variable {value : Json} {shape : Shape}

/-- The flat result of a query is made of the leaves of its nested result. -/
lemma entriesOf_filterTop_flat (hn : Node.Distinct (.one shape)) (query : Query)
    (data : Json) :
    Json.entriesOf (filterTop data (some (.one shape)) query .flat)
      = Entries.merge
          ((Node.one shape).flatEntries (compile query (some shape)) data) := by
  have hflat := Shape.flat_eq_merge_flatEntries hn
    (fun _ => child?_compile_empty query shape) data
  by_cases hdata : data = .null
  · subst hdata
    rfl
  · have hresult : filterTop data (some (.one shape)) query .flat
        = some (Shape.flat data (compile query (some shape)) shape) := if_neg hdata
    rw [hresult, hflat]
    rfl

/-- **Leaves that a flat result loses.** The flat result of a query against a shape that was
read holds the leaves of the nested result, of equal paths the last one. So it has as many
entries as there are leaves exactly if their paths are all different, and it has if no key of
the shape has a dot. -/
theorem filterTop_flat_length_eq_iff (hvalue : value.Settled)
    (h : Node.ofJson value = .ok (.one shape)) (query : Query) (data : Json) :
    Json.entriesOf (filterTop data (some (.one shape)) query .flat)
        = Entries.merge ((Node.one shape).flatEntries (compile query (some shape)) data) ∧
      ((Json.entriesOf (filterTop data (some (.one shape)) query .flat)).length
          = ((Node.one shape).shownLeaves
              (filterTop data (some (.one shape)) query .nested)).length ↔
        (Entries.keys
          ((Node.one shape).flatEntries (compile query (some shape)) data)).Nodup) ∧
      (Node.AllKeys (fun key => '.' ∉ key.toList) (.one shape) →
        (Json.entriesOf (filterTop data (some (.one shape)) query .flat)).length
          = ((Node.one shape).shownLeaves
              (filterTop data (some (.one shape)) query .nested)).length) := by
  have hn : Node.Distinct (.one shape) :=
    Node.distinct_ofEntry hvalue (Node.ofEntry_of_ofJson h "")
  have hentries := entriesOf_filterTop_flat hn query data
  have hlength : ((Node.one shape).flatEntries (compile query (some shape)) data).length
      = ((Node.one shape).shownLeaves
          (filterTop data (some (.one shape)) query .nested)).length := List.length_map _
  refine ⟨hentries, ?_, fun hkeys => ?_⟩
  · rw [hentries, ← hlength, Entries.length_merge_eq_iff]
  · rw [hentries, ← hlength, Entries.length_merge_eq_iff]
    exact Shape.nodup_keys_flatEntries hn hkeys data

end Query

/-- The value that declares a field whose key looks like the path of another one. -/
def dottedShapeValue : Json :=
  .object [("a.b", .bool true), ("a", .object [("b", .bool true)])]

/-- The shape that it declares. -/
def dottedShape : Shape :=
  [("a.b", .field none), ("a", .one [("b", .field none)])]

/-- Data with a value for each of the fields. -/
def dottedData : Json :=
  .object [("a.b", .int 1), ("a", .object [("b", .int 2)])]

lemma settled_dottedShapeValue : dottedShapeValue.Settled := by
  refine .object (by decide) fun entry hm => ?_
  rcases List.mem_pair.mp hm with rfl | rfl
  · exact .bool true
  · exact .object (by decide) fun entry hm => List.mem_singleton.mp hm ▸ .bool true

/-- The leaves of that data have one path, so that the flat result has fewer entries. -/
theorem filterTop_flat_length_eq_iff_dotted :
    dottedShapeValue.Settled ∧ Node.ofJson dottedShapeValue = .ok (.one dottedShape) ∧
      (Json.entriesOf (filterTop dottedData (some (.one dottedShape)) {} .flat)).length
        ≠ ((Node.one dottedShape).shownLeaves
            (filterTop dottedData (some (.one dottedShape)) {} .nested)).length := by
  have hread : Node.ofJson dottedShapeValue = .ok (.one dottedShape) := by rfl
  refine ⟨settled_dottedShapeValue, hread, ?_⟩
  rw [Ne, (filterTop_flat_length_eq_iff settled_dottedShapeValue hread {} dottedData).2.1]
  decide

/-- **A value is overwritten**: of two values that the nested result shows, the flat result
has the second one only. -/
theorem filterTop_flat_overwrites :
    Node.ofJson dottedShapeValue = .ok (.one dottedShape) ∧
      filterTop dottedData (some (.one dottedShape)) {} .nested = some dottedData ∧
      ((Node.one dottedShape).shownLeaves (some dottedData)).length = 2 ∧
      filterTop dottedData (some (.one dottedShape)) {} .flat
        = some (.object [("a.b", .int 2)]) := by
  refine ⟨rfl, ?nested, ?leaves, ?flat⟩
  case nested => decide
  case leaves => decide
  case flat => decide

end FieldSelection
