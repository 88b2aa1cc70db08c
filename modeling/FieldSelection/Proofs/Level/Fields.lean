import FieldSelection.Proofs.Level.Descent
import FieldSelection.Proofs.Shape.Distinct

/-!
The fields of a level.

Names come into a level from its tokens or from the list of its fields. Either way the
shape and the model know them.

* `Place.Declares`: the shape and the model of a place have a field of that name, as far
  as there are any; `mem_fields?_iff`: these are the fields that can be listed.
* `mem_excluded_asked`, `mem_unwantedRelations`: the fields and the relations that tokens
  exclude.
* `declares_of_mem_attributes?`: the attributes of a level are declared.
* `mem_attributes?_of_mem_excluded`: of the excluded fields, keys mode puts the keys
  back.
-/

namespace FieldSelection

open FieldSelection.Selection

/-! ### Declared fields -/

/-- The shape and the model have a field of that name, as far as there are any. -/
structure Place.Declares (place : Place) (name : String) : Prop where
  shape : ∀ shape, place.shape = some shape → name ∈ Entries.keys shape.fields
  schema : ∀ model, place.schema = some model → model.isAttribute name = true

lemma Shape.mem_keys_fields_of_marker? {shape : Shape} {name : String}
    (h : (shape.marker? name).isSome) : name ∈ Entries.keys shape.fields := by
  rw [marker?, get?] at h
  cases hnode : Entries.lookup? name shape with
  | none => simp [hnode] at h
  | some node =>
      cases node with
      | field key => exact mem_keys_fields.mpr ⟨key, Entries.mem_of_lookup? hnode⟩
      | one sub => simp [hnode, Node.marker?] at h
      | many sub => simp [hnode, Node.marker?] at h

lemma ModelView.mem_attributeNames_iff {view : ModelView} {name : String} :
    name ∈ view.attributeNames ↔ view.isAttribute name = true := by
  simp [attributeNames, isAttribute, Model.attribute?]

namespace Place

variable {place : Place} {name : String}

/-- What is a field of a place is declared there. -/
lemma declares_of_hasField (h : place.hasField name = true) : place.Declares name := by
  obtain ⟨shape, schema, path⟩ := place
  simp only [hasField, shapeHasField, schemaHasField, Bool.and_eq_true, decide_eq_true_eq] at h
  constructor
  · rintro shape rfl
    exact Shape.mem_keys_fields_of_marker? (by simpa using h.1.2)
  · rintro model rfl
    simpa using h.2

/-- The fields that can be listed are those that are declared. -/
lemma mem_fields?_iff {names : List String} (h : place.fields? = some names) :
    name ∈ names ↔ place.Declares name := by
  obtain ⟨shape, schema, path⟩ := place
  cases shape with
  | some shape =>
      rw [fields?, Option.some.injEq] at h
      rw [← h, List.mem_filter, schemaHasField]
      constructor
      · rintro ⟨hshape, hschema⟩
        refine ⟨?_, ?_⟩
        · rintro _ ⟨⟩
          exact hshape
        · rintro model rfl
          simpa using hschema
      · rintro ⟨hshape, hschema⟩
        refine ⟨hshape shape rfl, ?_⟩
        cases schema with
        | none => rfl
        | some model => exact hschema model rfl
  | none =>
      cases schema with
      | none => cases h
      | some model =>
          rw [fields?, Option.some.injEq] at h
          rw [← h, ModelView.mem_attributeNames_iff]
          constructor
          · intro hmodel
            refine ⟨?_, ?_⟩
            · rintro _ ⟨⟩
            · rintro _ ⟨⟩
              exact hmodel
          · exact fun hdeclares => hdeclares.schema model rfl

/-- Fields cannot be listed only where there is neither a shape nor a model. -/
lemma fields?_eq_none (h : place.fields? = none) : place.shape = none ∧ place.schema = none := by
  obtain ⟨shape, schema, path⟩ := place
  cases shape <;> cases schema <;> simp_all [fields?]

/-- Where fields cannot be listed nothing is forbidden, and nothing is a key. -/
lemma declares_of_fields?_eq_none (h : place.fields? = none) : place.Declares name := by
  obtain ⟨hshape, hschema⟩ := fields?_eq_none h
  exact ⟨fun shape hs => by simp [hshape] at hs, fun model hm => by simp [hschema] at hm⟩

lemma isKey_of_fields?_eq_none (h : place.fields? = none) : place.isKey name = false := by
  obtain ⟨hshape, hschema⟩ := fields?_eq_none h
  simp [isKey, hshape, hschema]

/-! ### What tokens ask for -/

variable {keysMode : Bool} {tokens : List Token}

/-- The attributes of a request are fields. -/
lemma hasField_of_mem_attributes_asked (h : name ∈ (place.asked keysMode tokens).attributes) :
    place.hasField name = true := by
  rw [asked_attributes, mem_distinctNames, List.mem_filterMap] at h
  obtain ⟨token, -, htoken⟩ := h
  cases token <;> simp only [wanted?, Option.ite_none_right_eq_some, Option.some.injEq,
    reduceCtorEq] at htoken
  · exact htoken.2 ▸ htoken.1
  · exact htoken.2 ▸ htoken.1

/-- The fields that a request excludes. -/
lemma mem_excluded_asked :
    name ∈ (place.asked keysMode tokens).excluded
      ↔ .except name ∈ tokens ∧ place.hasField name = true := by
  rw [asked_excluded, mem_distinctNames, List.mem_filterMap]
  constructor
  · rintro ⟨token, hmem, htoken⟩
    cases token <;> simp only [unwanted?, Option.ite_none_right_eq_some, Option.some.injEq,
      reduceCtorEq] at htoken
    obtain ⟨hfield, rfl⟩ := htoken
    exact ⟨hmem, hfield⟩
  · rintro ⟨hmem, hfield⟩
    exact ⟨_, hmem, if_pos hfield⟩

/-- The relations that tokens exclude are no fields. -/
lemma mem_unwantedRelations {name : String} :
    name ∈ place.unwantedRelations tokens
      ↔ .except name ∈ tokens ∧ place.hasField name = false ∧ (place.enter? name).isSome := by
  rw [unwantedRelations, List.mem_filterMap]
  constructor
  · rintro ⟨token, hmem, htoken⟩
    cases token <;> simp only [unwantedRelation?, Option.ite_none_right_eq_some,
      Option.some.injEq, reduceCtorEq] at htoken
    obtain ⟨hname, rfl⟩ := htoken
    exact ⟨hmem, by simpa using hname⟩
  · rintro ⟨hmem, hfield, hrelation⟩
    exact ⟨_, hmem, by simp [unwantedRelation?, hfield, hrelation]⟩

/-! ### Attributes of a level -/

/-- The attributes of a level are declared. -/
lemma declares_of_mem_attributes? {attributes : List String}
    (h : place.attributes? keysMode (place.asked keysMode tokens) = some attributes)
    (hname : name ∈ attributes) : place.Declares name := by
  rw [attributes?] at h
  split at h
  · obtain ⟨names, hnames, rfl⟩ := Option.map_eq_some_iff.mp h
    exact (mem_fields?_iff hnames).mp (List.mem_filter.mp hname).1
  · cases h
    exact declares_of_hasField (hasField_of_mem_attributes_asked hname)

/-- Only where fields cannot be listed, a level has every attribute. -/
lemma fields?_eq_none_of_attributes? {request : Request}
    (h : place.attributes? keysMode request = none) : place.fields? = none := by
  rw [attributes?] at h
  split at h
  · exact Option.map_eq_none_iff.mp h
  · cases h

/-- An excluded field is an attribute all the same if it is a key and keys mode is on. -/
lemma mem_attributes?_of_mem_excluded
    (h : name ∈ (place.asked keysMode tokens).excluded) :
    name ∈ (place.attributes? keysMode (place.asked keysMode tokens)).getD []
      ↔ keysMode = true ∧ place.isKey name = true := by
  have hcomplement : (place.asked keysMode tokens).isComplement = true := by
    have hne : (place.asked keysMode tokens).excluded ≠ [] := List.ne_nil_of_mem h
    simp [Request.isComplement, hne]
  have hdeclares := declares_of_hasField (mem_excluded_asked.mp h).2
  rw [attributes?, if_pos hcomplement]
  cases hfields : place.fields? with
  | none => simp [isKey_of_fields?_eq_none hfields]
  | some names =>
      have hmem := (mem_fields?_iff hfields).mpr hdeclares
      simp [hmem, h]

end Place

end FieldSelection
