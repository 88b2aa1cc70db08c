import FieldSelection.Projection
import FieldSelection.Proofs.Projection.Kept
import FieldSelection.Proofs.Shape.Declared

/-!
What nested projections show, exactly.

A projection shows nothing that the data does not hold where the shape and the descriptor
lead, and it leaves nothing out of that. The presence of a key depends on what is present
anywhere below it, so it is told by walking the shape (`Shape.Keeps`) and not by projecting.

* `Node.KeptUnder`, `Shape.Keeps`, `Node.Present`: when a key of an object is kept, when an
  object has a kept key, and when there is anything to show of a value.
* `Node.Shows`: what may be shown of a value, and has to be.
* `Json.Within`: a value that was cut out of another one.
* `Node.keepsExactly`, `Node.showsExactly`, `Node.showsWithin`: the same of projections, by
  induction on the shape.
* `project_eq_some_iff_shows`: a projection is what is to be shown, is absent if there is
  nothing, and is cut out of the data.
-/

namespace FieldSelection

/-! ### What there is to show -/

mutual

/-- Whether an object keeps the key of a node: a field that is selected and there, or a
relation that is followed to an array, or to an object that keeps a key. -/
def Node.KeptUnder (descriptor : Descriptor) (data : List (String × Json)) (key : String) :
    Node → Prop
  | .field _ => descriptor.selects key = true ∧ key ∈ Entries.keys data
  | .one shape => ∃ child entries, descriptor.child? key = some child ∧
      Entries.lookup? key data = some (.object entries) ∧ Shape.Keeps child entries shape
  | .many _ => ∃ child items, descriptor.child? key = some child ∧
      Entries.lookup? key data = some (.array items)

/-- Whether an object keeps any key of a shape. -/
def Shape.Keeps (descriptor : Descriptor) (data : List (String × Json)) :
    List (String × Node) → Prop
  | [] => False
  | (key, node) :: shape =>
    Node.KeptUnder descriptor data key node ∨ Shape.Keeps descriptor data shape

end

/-- Whether there is anything to show of a value. -/
def Node.Present (descriptor : Descriptor) (data : Json) : Node → Prop
  | .field _ => False
  | .one shape => ∃ entries, data = .object entries ∧ Shape.Keeps descriptor entries shape
  | .many _ => ∃ items, data = .array items

mutual

/-- What is to be shown of a value behind a node. -/
inductive Node.Shows : Node → Descriptor → Json → Json → Prop where
  /-- Of an object an object, unless no key is kept: the kept keys and no others in the order
  of the shape, the fields as they are. -/
  | one {shape : Shape} {descriptor : Descriptor} {data kept : List (String × Json)}
      (order : (Entries.keys kept).Sublist (Entries.keys shape)) (nonempty : kept ≠ [])
      (keys : ∀ entry ∈ shape,
        entry.1 ∈ Entries.keys kept ↔ entry.2.KeptUnder descriptor data entry.1)
      (fields : ∀ entry ∈ shape, entry.2.isField = true → ∀ value, (entry.1, value) ∈ kept →
        Entries.lookup? entry.1 data = some value)
      (relations : ∀ entry ∈ shape, entry.2.isRelation = true → ∀ child source value,
        descriptor.child? entry.1 = some child → Entries.lookup? entry.1 data = some source →
        (entry.1, value) ∈ kept → Node.Shows entry.2 child source value) :
      Node.Shows (.one shape) descriptor (.object data) (.object kept)
  /-- Of an array an array. -/
  | many {shape : Shape} {descriptor : Descriptor} {items shown : List Json}
      (elements : Shape.ShowsItems shape descriptor items shown) :
      Node.Shows (.many shape) descriptor (.array items) (.array shown)

/-- What is to be shown of the elements of an array, in order: elements of which there is
nothing to show are left out. -/
inductive Shape.ShowsItems : Shape → Descriptor → List Json → List Json → Prop where
  | nil {shape : Shape} {descriptor : Descriptor} : Shape.ShowsItems shape descriptor [] []
  | skip {shape : Shape} {descriptor : Descriptor} {item : Json} {items shown : List Json}
      (absent : ¬ Node.Present descriptor item (.one shape))
      (rest : Shape.ShowsItems shape descriptor items shown) :
      Shape.ShowsItems shape descriptor (item :: items) shown
  | keep {shape : Shape} {descriptor : Descriptor} {item value : Json}
      {items shown : List Json} (here : Node.Shows (.one shape) descriptor item value)
      (rest : Shape.ShowsItems shape descriptor items shown) :
      Shape.ShowsItems shape descriptor (item :: items) (value :: shown)

end

/-! ### Parts of values -/

mutual

/-- A value that was cut out of another one: the whole of it, or an object with some of the
keys, or an array with some of the elements. -/
inductive Json.Within : Json → Json → Prop where
  | whole (value : Json) : Json.Within value value
  | object {part data : List (String × Json)} (h : Json.EntriesWithin part data) :
      Json.Within (.object part) (.object data)
  | array {part items : List Json} (h : Json.ItemsWithin part items) :
      Json.Within (.array part) (.array items)

/-- Entries whose values were cut out of what an object has under their keys. -/
inductive Json.EntriesWithin : List (String × Json) → List (String × Json) → Prop where
  | nil {data : List (String × Json)} : Json.EntriesWithin [] data
  | cons {key : String} {value source : Json} {part data : List (String × Json)}
      (found : Entries.lookup? key data = some source) (here : Json.Within value source)
      (rest : Json.EntriesWithin part data) : Json.EntriesWithin ((key, value) :: part) data

/-- Elements that were cut out of some of the elements of an array, in order. -/
inductive Json.ItemsWithin : List Json → List Json → Prop where
  | nil : Json.ItemsWithin [] []
  | drop {item : Json} {part items : List Json} (rest : Json.ItemsWithin part items) :
      Json.ItemsWithin part (item :: items)
  | take {value item : Json} {part items : List Json} (here : Json.Within value item)
      (rest : Json.ItemsWithin part items) : Json.ItemsWithin (value :: part) (item :: items)

end

/-! ### When there is something to show -/

lemma Shape.keeps_iff {descriptor : Descriptor} {data : List (String × Json)} {shape : Shape} :
    Shape.Keeps descriptor data shape ↔
      ∃ entry ∈ shape, entry.2.KeptUnder descriptor data entry.1 := by
  induction shape with
  | nil => simp [Keeps]
  | cons entry shape ih => rw [Keeps, ih, List.exists_mem_cons_iff]

/-- Whether the key of a node is kept as the shape below it says. -/
def Node.KeepsExactly (node : Node) : Prop :=
  ∀ (descriptor : Descriptor) (data : List (String × Json)) (key : String),
    (node.shown? data descriptor key).isSome = true ↔ node.KeptUnder descriptor data key

/-- One object: something is shown of it exactly if it keeps a key. -/
lemma Shape.isSome_shown?_iff {shape : Shape} (h : ∀ entry ∈ shape, entry.2.KeepsExactly)
    (descriptor : Descriptor) (data : Json) :
    (shape.shown? descriptor data).isSome = true ↔
      ∃ entries, data = .object entries ∧ Shape.Keeps descriptor entries shape := by
  have hkeeps : ∀ entries,
      kept entries descriptor shape ≠ [] ↔ Shape.Keeps descriptor entries shape := by
    intro entries
    rw [kept_ne_nil_iff, keeps_iff]
    exact exists_congr fun entry => and_congr_right fun hm => h entry hm descriptor entries entry.1
  rw [Option.isSome_iff_exists]
  simp only [shown?_eq_some_iff, hkeeps]
  constructor
  · rintro ⟨result, entries, rfl, hentries, rfl⟩
    exact ⟨entries, rfl, hentries⟩
  · rintro ⟨entries, rfl, hentries⟩
    exact ⟨_, entries, rfl, hentries, rfl⟩

/-- **The presence of a key** is as the shape below it says. -/
lemma Node.keepsExactly (node : Node) : node.KeepsExactly := by
  induction node using Node.ind with
  | field role =>
      intro descriptor data key
      rw [KeptUnder, ← Entries.isSome_lookup?_iff, shown?_of_isField rfl]
      split
      · next hselects => simp [hselects]
      · next hselects => simp [hselects]
  | one shape ih =>
      intro descriptor data key
      rw [isSome_shown?_of_isRelation rfl, KeptUnder]
      simp only [nested_one, Shape.isSome_shown?_iff ih]
      constructor
      · rintro ⟨child, _, hchild, hsource, entries, rfl, hentries⟩
        exact ⟨child, entries, hchild, hsource, hentries⟩
      · rintro ⟨child, entries, hchild, hsource, hentries⟩
        exact ⟨child, _, hchild, hsource, entries, rfl, hentries⟩
  | many shape ih =>
      intro descriptor data key
      rw [isSome_shown?_of_isRelation rfl, KeptUnder]
      constructor
      · rintro ⟨child, source, hchild, hsource, hshown⟩
        cases source with
        | array items => exact ⟨child, items, hchild, hsource⟩
        | _ => cases hshown
      · rintro ⟨child, items, hchild, hsource⟩
        exact ⟨child, _, hchild, hsource, rfl⟩

/-- **A projection is absent** exactly if there is nothing to show. -/
lemma Node.isSome_nested_iff (node : Node) (descriptor : Descriptor) (data : Json) :
    (node.nested data descriptor).isSome = true ↔ node.Present descriptor data := by
  cases node with
  | field role => simp [nested, Present]
  | one shape => exact Shape.isSome_shown?_iff (fun entry _ => entry.2.keepsExactly) descriptor data
  | many shape => cases data <;> simp [nested, Present]

/-! ### What is shown -/

/-- Whether the projection behind a node is what is to be shown. -/
def Node.ShowsExactly (node : Node) : Prop :=
  ∀ (descriptor : Descriptor) (data result : Json),
    node.nested data descriptor = some result ↔ node.Shows descriptor data result

namespace Shape

variable {shape : Shape} {descriptor : Descriptor}

section Object

variable {data : List (String × Json)}

/-- What is kept of an object is to be shown of it. -/
lemma shows_kept (hn : (Entries.keys shape).Nodup)
    (hnodes : ∀ entry ∈ shape, entry.2.ShowsExactly) (hne : kept data descriptor shape ≠ []) :
    Node.Shows (.one shape) descriptor (.object data) (.object (kept data descriptor shape)) := by
  have hsub := keys_kept_sublist data descriptor shape
  have hshown : ∀ entry ∈ shape, ∀ value, (entry.1, value) ∈ kept data descriptor shape →
      entry.2.shown? data descriptor entry.1 = some value := by
    intro entry hm value hvalue
    rw [← lookup?_kept hn hm, Entries.lookup?_of_mem (hsub.nodup hn) hvalue]
  refine .one hsub hne ?keys ?fields ?relations
  case keys =>
    intro entry hm
    rw [← Entries.isSome_lookup?_iff, lookup?_kept hn hm, entry.2.keepsExactly]
  case fields =>
    intro entry hm hfield value hvalue
    exact ((Node.shown?_eq_some_of_isField hfield).mp (hshown entry hm value hvalue)).2
  case relations =>
    intro entry hm hrelation child source value hchild hsource hvalue
    obtain ⟨child', source', hchild', hsource', hnested⟩ :=
      (Node.shown?_eq_some_of_isRelation hrelation).mp (hshown entry hm value hvalue)
    rw [hchild] at hchild'
    rw [hsource] at hsource'
    cases hchild'
    cases hsource'
    exact (hnodes entry hm child source value).mp hnested

/-- What is to be shown of an object is what is kept of it. -/
lemma kept_eq_of_shows (hn : (Entries.keys shape).Nodup)
    (hnodes : ∀ entry ∈ shape, entry.2.ShowsExactly) {shown : List (String × Json)}
    (h : Node.Shows (.one shape) descriptor (.object data) (.object shown)) :
    kept data descriptor shape = shown := by
  obtain ⟨order, -, keys, fields, relations⟩ := h
  have hlookup : ∀ entry ∈ shape,
      entry.2.shown? data descriptor entry.1 = Entries.lookup? entry.1 shown := by
    intro entry hm
    have hkeys := keys entry hm
    rw [← Entries.isSome_lookup?_iff, ← entry.2.keepsExactly] at hkeys
    cases hvalue : Entries.lookup? entry.1 shown with
    | none =>
        rw [hvalue] at hkeys
        simpa using hkeys
    | some value =>
        rw [hvalue] at hkeys
        have hkept := hkeys.mp rfl
        have hmem : (entry.1, value) ∈ shown := Entries.mem_of_lookup? hvalue
        rcases entry.2.isField_or_isRelation with hfield | hrelation
        · obtain ⟨other, hother⟩ := Option.isSome_iff_exists.mp hkept
          have hselects := ((Node.shown?_eq_some_of_isField hfield).mp hother).1
          exact (Node.shown?_eq_some_of_isField hfield).mpr
            ⟨hselects, fields entry hm hfield value hmem⟩
        · obtain ⟨child, source, hchild, hsource, -⟩ :=
            (Node.isSome_shown?_of_isRelation hrelation).mp hkept
          have hshows := relations entry hm hrelation child source value hchild hsource hmem
          exact (Node.shown?_eq_some_of_isRelation hrelation).mpr
            ⟨child, source, hchild, hsource, (hnodes entry hm child source value).mpr hshows⟩
  calc kept data descriptor shape
      = shape.filterMap fun entry =>
          (entry.2.shown? data descriptor entry.1).map (entry.1, ·) :=
        kept_eq_filterMap data descriptor shape
    _ = shape.filterMap fun entry => (Entries.lookup? entry.1 shown).map (entry.1, ·) :=
        List.filterMap_congr fun entry hm => by rw [hlookup entry hm]
    _ = shown := Entries.filterMap_lookup?_eq hn order

end Object

/-- One object. -/
lemma shown?_eq_some_iff_shows (hn : (Entries.keys shape).Nodup)
    (hnodes : ∀ entry ∈ shape, entry.2.ShowsExactly) (data result : Json) :
    shape.shown? descriptor data = some result ↔
      Node.Shows (.one shape) descriptor data result := by
  rw [shown?_eq_some_iff]
  constructor
  · rintro ⟨entries, rfl, hne, rfl⟩
    exact shows_kept hn hnodes hne
  · intro h
    cases h with
    | @one _ _ entries shown order nonempty keys fields relations =>
        have hkept : kept entries descriptor shape = shown :=
          kept_eq_of_shows hn hnodes (.one order nonempty keys fields relations)
        exact ⟨entries, rfl, by rwa [hkept], by rw [hkept]⟩

/-- The elements of an array. -/
lemma filterMap_eq_iff_showsItems (hn : (Entries.keys shape).Nodup)
    (hnodes : ∀ entry ∈ shape, entry.2.ShowsExactly) (descriptor : Descriptor)
    (items shown : List Json) :
    items.filterMap (shape.shown? descriptor) = shown ↔
      shape.ShowsItems descriptor items shown := by
  have habsent : ∀ item, shape.shown? descriptor item = none ↔
      ¬ Node.Present descriptor item (.one shape) := by
    intro item
    rw [← Node.isSome_nested_iff, Node.nested_one]
    simp
  induction items generalizing shown with
  | nil =>
      constructor
      · rintro rfl
        exact .nil
      · intro h
        cases h
        rfl
  | cons item items ih =>
      rw [List.filterMap_cons]
      constructor
      · intro h
        cases hitem : shape.shown? descriptor item with
        | none =>
            rw [hitem] at h
            exact .skip ((habsent item).mp hitem) ((ih shown).mp h)
        | some value =>
            rw [hitem] at h
            subst h
            exact .keep ((shown?_eq_some_iff_shows hn hnodes item value).mp hitem)
              ((ih _).mp rfl)
      · intro h
        cases h with
        | skip absent rest =>
            rw [(habsent item).mpr absent]
            exact (ih shown).mpr rest
        | @keep _ _ _ value _ shown here rest =>
            rw [(shown?_eq_some_iff_shows hn hnodes item value).mpr here, (ih shown).mpr rest]

end Shape

/-- **Every projection** is what is to be shown. -/
lemma Node.showsExactly (node : Node) (hn : node.Distinct) : node.ShowsExactly := by
  induction node, hn using Node.Distinct.ind with
  | field role h =>
      intro descriptor data result
      constructor <;> intro h <;> cases h
  | one shape h hkeys ih =>
      exact fun descriptor data result => Shape.shown?_eq_some_iff_shows hkeys ih data result
  | many shape h hkeys ih =>
      intro descriptor data result
      have hitems := Shape.filterMap_eq_iff_showsItems hkeys ih descriptor
      constructor
      · intro h
        cases data with
        | array items =>
            cases h
            exact .many ((hitems items _).mp rfl)
        | _ => cases h
      · intro h
        cases h with
        | @many _ _ items shown elements =>
            rw [nested_many, (hitems items shown).mpr elements]

/-! ### Projections are cut out of the data -/

/-- Whether the projection behind a node is cut out of the data. -/
def Node.ShowsWithin (node : Node) : Prop :=
  ∀ (descriptor : Descriptor) (data result : Json),
    node.nested data descriptor = some result → result.Within data

namespace Shape

variable {shape : Shape} {descriptor : Descriptor}

/-- What is kept of an object is cut out of it, entry by entry. -/
lemma entriesWithin_kept (hnodes : ∀ entry ∈ shape, entry.2.ShowsWithin)
    (data : List (String × Json)) : Json.EntriesWithin (kept data descriptor shape) data := by
  rw [kept_eq_filterMap]
  induction shape with
  | nil => exact .nil
  | cons entry shape ih =>
      obtain ⟨hnode, hrest⟩ := List.forall_mem_cons.mp hnodes
      rw [List.filterMap_cons]
      cases hshown : entry.2.shown? data descriptor entry.1 with
      | none => exact ih hrest
      | some value =>
          rcases entry.2.isField_or_isRelation with hfield | hrelation
          · have hfound := ((Node.shown?_eq_some_of_isField hfield).mp hshown).2
            exact .cons hfound (.whole value) (ih hrest)
          · obtain ⟨child, source, -, hfound, hnested⟩ :=
              (Node.shown?_eq_some_of_isRelation hrelation).mp hshown
            exact .cons hfound (hnode child source value hnested) (ih hrest)

/-- The projection of one object is cut out of it. -/
lemma within_of_shown? (hnodes : ∀ entry ∈ shape, entry.2.ShowsWithin) {data result : Json}
    (h : shape.shown? descriptor data = some result) : result.Within data := by
  obtain ⟨entries, rfl, -, rfl⟩ := shown?_eq_some_iff.mp h
  exact .object (entriesWithin_kept hnodes entries)

/-- The projections of the elements of an array are cut out of it. -/
lemma itemsWithin_filterMap (hnodes : ∀ entry ∈ shape, entry.2.ShowsWithin)
    (items : List Json) :
    Json.ItemsWithin (items.filterMap (shape.shown? descriptor)) items := by
  induction items with
  | nil => exact .nil
  | cons item items ih =>
      rw [List.filterMap_cons]
      cases hitem : shape.shown? descriptor item with
      | none => exact .drop ih
      | some value => exact .take (within_of_shown? hnodes hitem) ih

end Shape

/-- **Every projection** is cut out of the data. -/
lemma Node.showsWithin (node : Node) : node.ShowsWithin := by
  induction node using Node.ind with
  | field role =>
      intro descriptor data result h
      cases h
  | one shape ih => exact fun descriptor data result h => Shape.within_of_shown? ih h
  | many shape ih =>
      intro descriptor data result h
      cases data with
      | array items =>
          cases h
          exact .array (Shape.itemsWithin_filterMap ih items)
      | _ => cases h

/-! ### Projections -/

/-- **Projections are sound and complete.** A nested projection is what is to be shown of
the data; it is absent exactly if there is nothing to show, and it is cut out of the data. -/
theorem project_eq_some_iff_shows {node : Node} (hn : node.Distinct) (descriptor : Descriptor)
    (data : Json) :
    (∀ result, project data node descriptor .nested = some result ↔
        node.Shows descriptor data result) ∧
      (project data node descriptor .nested = none ↔ ¬ node.Present descriptor data) ∧
      ∀ result, project data node descriptor .nested = some result → result.Within data := by
  refine ⟨node.showsExactly hn descriptor data, ?_, node.showsWithin descriptor data⟩
  rw [← node.isSome_nested_iff, project]
  simp

/-- Orders with their customers and their lines. -/
def orderNode : Node :=
  .one [("number", .field (some .primary)),
    ("customer", .one [("name", .field none), ("mail", .field none)]),
    ("lines", .many [("article", .field none), ("price", .field none)])]

/-- An order whose customer has no name, and lines of which only one has an article. -/
def orderData : Json :=
  .object [("price", .int 3), ("customer", .object [("mail", .string "a@b")]),
    ("lines", .array [.object [("price", .int 2)], .int 7, .object [("article", .string "pen")]]),
    ("number", .int 12)]

/-- The number, the name of the customer and the articles. -/
def orderSelection : Descriptor where
  attributes := ["article", "number"]
  includes := [{ attributes := ["name"], association := some "customer" },
    { attributes := ["article"], association := some "lines" }]

/-- Of the customer nothing is shown, and of the lines one. -/
theorem project_eq_some_iff_shows_order :
    orderNode.Distinct ∧ orderNode.Shows orderSelection orderData
      (.object [("number", .int 12), ("lines", .array [.object [("article", .string "pen")]])]) :=
  ⟨by decide,
    ((project_eq_some_iff_shows (by decide) orderSelection orderData).1 _).mp (by decide)⟩

end FieldSelection
