import FieldSelection.Proofs.Level.Filters
import FieldSelection.Proofs.Schema.Pruning

/-!
Descriptors stay inside the shape.

A selection is untrusted text. Whatever it says, a descriptor that was compiled against a
shape names only what the shape declares, and what the models know if there is a schema.

* `Shape.follow?`, `ModelView.follow?`: what is at the end of a path of relations.
* `Place.declares_of_mentions`: every name in a level is declared at its place, whether it
  is an attribute, excluded or filtered on.
* `compile_inside`: so every level of a descriptor is inside the shape and the model that
  the same path leads to.
-/

namespace FieldSelection

open FieldSelection.Selection

/-! ### Paths through shapes and models -/

/-- The shape at the end of a path of relations, if the shapes have all of them. -/
def Shape.follow? (shape : Shape) : List String → Option Shape
  | [] => some shape
  | name :: path => (shape.behind? name).bind fun sub => Shape.follow? sub path

/-- The model at the end of a path of associations, if the models have all of them. -/
def ModelView.follow? (view : ModelView) : List String → Option ModelView
  | [] => some view
  | name :: path => (view.target? name).bind fun target => target.follow? path

lemma Shape.mem_keys_relations_of_behind? {shape sub : Shape} {name : String}
    (h : shape.behind? name = some sub) : name ∈ Entries.keys shape.relations := by
  obtain ⟨node, hnode, -⟩ := Option.bind_eq_some_iff.mp h
  rw [relation?, get?, Option.filter_eq_some_iff] at hnode
  exact mem_keys_relations.mpr ⟨node, Entries.mem_of_lookup? hnode.1, hnode.2⟩

namespace Place

variable {place next : Place} {name : String} {path : List String}

/-- A relation of a place is one of its shape. -/
lemma behind?_of_enter? {shape : Shape} (hshape : place.shape = some shape)
    (h : place.enter? name = some next) :
    ∃ sub, shape.behind? name = some sub ∧ next.shape = some sub := by
  obtain ⟨-, hnext, -, -⟩ := enter?_eq_some_iff.mp h
  rw [enterShape?, hshape] at hnext
  obtain ⟨sub, hsub, heq⟩ := Option.map_eq_some_iff.mp hnext
  exact ⟨sub, hsub, heq.symm⟩

/-- The place behind a relation of a shape, where there is no model. -/
lemma enter?_of_behind? {shape sub : Shape} (hname : name ≠ "")
    (h : shape.behind? name = some sub) (path : String) :
    Place.enter? ⟨some shape, none, path⟩ name = some ⟨some sub, none, joinPath path name⟩ :=
  enter?_eq_some_iff.mpr ⟨hname, congrArg (Option.map some) h, rfl, rfl⟩

/-- A relation of a place is an association of its model. -/
lemma target?_of_enter? {view : ModelView} (hschema : place.schema = some view)
    (h : place.enter? name = some next) :
    ∃ target, view.target? name = some target ∧ next.schema = some target := by
  obtain ⟨-, -, hnext, -⟩ := enter?_eq_some_iff.mp h
  rw [enterSchema?, hschema] at hnext
  obtain ⟨target, htarget, heq⟩ := Option.map_eq_some_iff.mp hnext
  exact ⟨target, htarget, heq.symm⟩

/-- A path of relations leads through the shapes. -/
lemma shape_of_follow? {shape : Shape} (hshape : place.shape = some shape)
    (h : place.follow? path = some next) :
    ∃ sub, shape.follow? path = some sub ∧ next.shape = some sub := by
  induction path generalizing place shape with
  | nil =>
      cases h
      exact ⟨shape, rfl, hshape⟩
  | cons name path ih =>
      obtain ⟨mid, hmid, hnext⟩ := Option.bind_eq_some_iff.mp h
      obtain ⟨sub, hsub, hmidShape⟩ := behind?_of_enter? hshape hmid
      rw [Shape.follow?, hsub, Option.bind_some]
      exact ih hmidShape hnext

/-- A path of relations leads through the models. -/
lemma schema_of_follow? {view : ModelView} (hschema : place.schema = some view)
    (h : place.follow? path = some next) :
    ∃ target, view.follow? path = some target ∧ next.schema = some target := by
  induction path generalizing place view with
  | nil =>
      cases h
      exact ⟨view, rfl, hschema⟩
  | cons name path ih =>
      obtain ⟨mid, hmid, hnext⟩ := Option.bind_eq_some_iff.mp h
      obtain ⟨target, htarget, hmidSchema⟩ := target?_of_enter? hschema hmid
      rw [ModelView.follow?, htarget, Option.bind_some]
      exact ih hmidSchema hnext

end Place

/-! ### The names in a level -/

/-- Whether a name is in a level: as an attribute, as excluded, or with a filter on it. -/
def Descriptor.Mentions (level : Descriptor) (name : String) : Prop :=
  name ∈ level.attributes ∨ name ∈ level.excluded ∨ name ∈ Entries.keys level.filters

/-- A level names fields and relations of a shape only, and leaves nothing open. -/
structure Descriptor.InsideShape (level : Descriptor) (shape : Shape) : Prop where
  allAttributes : level.allAttributes = false
  includeAll : level.includeAll = false
  fields : ∀ name, level.Mentions name → name ∈ Entries.keys shape.fields
  relations : ∀ child ∈ level.includes, ∃ name, child.association = some name ∧
    name ∈ Entries.keys shape.relations

/-- A level names attributes and associations of a model only. -/
structure Descriptor.InsideModel (level : Descriptor) (view : ModelView) : Prop where
  attributes : ∀ name, level.Mentions name → view.isAttribute name = true
  associations : ∀ child ∈ level.includes, ∃ name, child.association = some name ∧
    (view.target? name).isSome

namespace Place

variable {options : CompileOptions} {query : Query} {place : Place} {tokens : List Token}
  {room : Nat} {name : String}

/-- What a level admits filters on is declared. -/
lemma declares_of_admits
    (h : (place.compiled options query room tokens).Admits name) : place.Declares name := by
  rw [compiled_eq_level] at h
  cases hattributes : place.attributes? options.includeKeys
      (place.asked options.includeKeys tokens) with
  | some attributes =>
      refine declares_of_mem_attributes? hattributes ?_
      simpa [Descriptor.Admits, level, hattributes] using h
  | none => exact declares_of_fields?_eq_none (fields?_eq_none_of_attributes? hattributes)

/-- **Every name in a level** is declared at its place. -/
lemma declares_of_mentions
    (h : (place.compiled options query room tokens).Mentions name) : place.Declares name := by
  by_cases hadmits : (place.compiled options query room tokens).Admits name
  · exact declares_of_admits hadmits
  · rcases h with hattribute | hexcluded | hfilter
    · exact absurd (Or.inl hattribute) hadmits
    · rw [compiled_eq_level] at hexcluded
      exact declares_of_hasField (mem_excluded_asked.mp (List.mem_filter.mp hexcluded).1).2
    · have hfound := mt Entries.lookup?_eq_none_iff.mp (not_not.mpr hfilter)
      rw [lookup?_filters_compiled, if_neg hadmits] at hfound
      exact declares_of_hasField (hasField_of_inline? hfound)

/-- A level with a shape names its fields and relations only. -/
lemma insideShape_compiled {shape : Shape} (hshape : place.shape = some shape) :
    (place.compiled options query room tokens).InsideShape shape where
  allAttributes := by
    rw [compiled_eq_level]
    cases hattributes : place.attributes? options.includeKeys
        (place.asked options.includeKeys tokens) with
    | some attributes => simp [level, hattributes]
    | none =>
        have hnone := (fields?_eq_none (fields?_eq_none_of_attributes? hattributes)).1
        rw [hshape] at hnone
        cases hnone
  includeAll := by
    rw [compiled_eq_level]
    simp [level, hshape]
  fields name h := (declares_of_mentions h).shape shape hshape
  relations child hchild := by
    obtain ⟨name, next, room', hnext, -, rfl⟩ := mem_includes_compiled hchild
    obtain ⟨sub, hsub, -⟩ := behind?_of_enter? hshape hnext
    exact ⟨name, rfl, Shape.mem_keys_relations_of_behind? hsub⟩

/-- A level with a model names its attributes and associations only. -/
lemma insideModel_compiled {view : ModelView} (hschema : place.schema = some view) :
    (place.compiled options query room tokens).InsideModel view where
  attributes name h := (declares_of_mentions h).schema view hschema
  associations child hchild := by
    obtain ⟨name, next, room', hnext, -, rfl⟩ := mem_includes_compiled hchild
    obtain ⟨target, htarget, -⟩ := target?_of_enter? hschema hnext
    exact ⟨name, rfl, Option.isSome_of_eq_some htarget⟩

end Place

/-! ### Whole descriptors -/

/-- What a level names does not depend on what only a root or an association has. -/
lemma Descriptor.insideShape_bare {level : Descriptor} {shape : Shape}
    (h : level.bare.InsideShape shape) : level.InsideShape shape :=
  ⟨h.allAttributes, h.includeAll, h.fields, h.relations⟩

lemma Descriptor.insideModel_bare {level : Descriptor} {view : ModelView}
    (h : level.bare.InsideModel view) : level.InsideModel view :=
  ⟨h.attributes, h.associations⟩

/-- **Descriptors stay inside the shape**: at the end of every path of associations, a
level of a descriptor is inside the shape that the same path of relations leads to, and
inside the model that it leads to if there is a schema. -/
theorem compile_inside {shape : Shape} {schema : Option ModelView} {options : CompileOptions}
    {query : Query} {path : List String} {level : Descriptor}
    (h : (Compiler.compile ⟨some shape, schema, options⟩ query).Reaches path level) :
    (∃ sub, shape.follow? path = some sub ∧ level.InsideShape sub) ∧
      ∀ view, schema = some view →
        ∃ target, view.follow? path = some target ∧ level.InsideModel target := by
  obtain ⟨place, room, hplace, hbare⟩ := reaches_compile h
  constructor
  · obtain ⟨sub, hsub, hshape⟩ := Place.shape_of_follow? rfl hplace
    refine ⟨sub, hsub, Descriptor.insideShape_bare ?_⟩
    rw [hbare]
    exact Place.insideShape_compiled hshape
  · rintro view rfl
    obtain ⟨target, htarget, hschema⟩ := Place.schema_of_follow? rfl hplace
    refine ⟨target, htarget, Descriptor.insideModel_bare ?_⟩
    rw [hbare]
    exact Place.insideModel_compiled hschema

/-- Asks for much that books do not have, with a bracket that is left open. -/
def greedyQuery : Query where
  fields := some "title=x,secret,-nothing,author(mail,name=y,secret=z,books(all,shop(all)),all"
  filters := [("author.name", .string "a"), ("author.secret", .string "b")]

/-- The authors that it finds are inside the shape of books and their model. -/
theorem compile_inside_book :
    ∃ level, (Compiler.compile ⟨some bookShape, some bookView, { includeKeys := true }⟩
        greedyQuery).Reaches ["author"] level ∧
      (∃ sub, bookShape.follow? ["author"] = some sub ∧ level.InsideShape sub) ∧
      ∀ view, some bookView = some view →
        ∃ target, view.follow? ["author"] = some target ∧ level.InsideModel target := by
  have hsome : ((Compiler.compile ⟨some bookShape, some bookView, { includeKeys := true }⟩
      greedyQuery).at? ["author"]).isSome := by decide
  obtain ⟨level, hlevel⟩ := Option.isSome_iff_exists.mp hsome
  exact ⟨level, .of_at? hlevel, compile_inside (.of_at? hlevel)⟩

end FieldSelection
