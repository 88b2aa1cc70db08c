import FieldSelection.Proofs.Compiler.Containment
import FieldSelection.Proofs.Compiler.Reordering
import FieldSelection.Proofs.Compiler.WellFormed
import FieldSelection.Proofs.Schema.Validation

/-!
Repeated attributes.

The attributes of a level come from its tokens, from the shape, or from the model. Tokens that
name a field again add nothing, and no level of a shape has a key twice. But a registry is
checked for repeated models only: a model may declare an attribute twice, and then a level
without a shape may list it twice.

* `Registry.DeclaresOnce`: every model declares each of its attributes once.
* `Place.nodup_attributes_iff`: when a level lists each attribute once.
* `nodup_attributes_compile`: so the levels of a descriptor do, unless they are listed from a
  model that declares one of them again.
* `attributes_repeated`: a registry that is valid and does so.
-/

namespace FieldSelection

open FieldSelection.Selection

/-! ### Models that declare attributes once -/

/-- Every model of a registry declares each of its attributes once. -/
def Registry.DeclaresOnce (registry : Registry) : Prop :=
  ∀ model ∈ registry.models, (model.attributes.map (·.name)).Nodup

instance (registry : Registry) : Decidable registry.DeclaresOnce :=
  inferInstanceAs (Decidable (∀ model ∈ registry.models, _))

/-- The model of a place, if it has one, is in a registry whose models declare each of their
attributes once. -/
def Place.DeclaresOnce (place : Place) : Prop :=
  ∀ view, place.schema = some view → view.model ∈ view.registry.models ∧ view.registry.DeclaresOnce

lemma Place.DeclaresOnce.enter? {place next : Place} {name : String} (hp : place.DeclaresOnce)
    (h : place.enter? name = some next) : next.DeclaresOnce := by
  intro target htarget
  obtain ⟨-, -, hschema, -⟩ := enter?_eq_some_iff.mp h
  rw [enterSchema?, htarget] at hschema
  cases hplace : place.schema with
  | none => simp [hplace] at hschema
  | some view =>
      rw [hplace] at hschema
      obtain ⟨other, hother, heq⟩ := Option.map_eq_some_iff.mp hschema
      cases heq
      obtain ⟨hregistry, hmodel⟩ := ModelView.mem_models_of_target? hother
      rw [hregistry]
      exact ⟨hmodel, (hp view hplace).2⟩

/-! ### One level -/

namespace Place

variable {options : CompileOptions} {query : Query} {place : Place} {room : Nat}
  {tokens : List Token}

/-- Names of which some are left out repeat no other one if each that is left is there once. -/
lemma nodup_filter_iff {names : List String} {keep : String → Bool} :
    (names.filter keep).Nodup ↔ ∀ name ∈ names.filter keep, names.count name = 1 := by
  rw [List.nodup_iff_count_eq_one]
  refine forall₂_congr fun name hname => ?_
  rw [List.count_filter (List.mem_filter.mp hname).2]

/-- The fields that can be listed from a shape without repeated keys are no repeated ones. -/
lemma Distinct.nodup_fields? (hd : place.Distinct) {shape : Shape} {names : List String}
    (hshape : place.shape = some shape) (h : place.fields? = some names) : names.Nodup := by
  rw [fields?, hshape, Option.some.injEq] at h
  rw [← h]
  have hkeys : (Entries.keys shape.fields).Nodup := by
    rw [Shape.keys_fields]
    exact (hd shape hshape).here.sublist (List.filter_sublist.map _)
  exact hkeys.filter _

/-- Fields that are named are listed at their first mention. -/
lemma nodup_attributes_of_not_complements (hc : ¬ place.Complements tokens) :
    (place.compiled options query room tokens).attributes.Nodup := by
  rw [compiled_eq_level, level, attributes?, if_neg (mt isComplement_asked_iff.mp hc),
    Option.getD_some, asked_attributes]
  exact nodup_distinctNames _

/-- Fields that are found by leaving some out stand as the place lists them. -/
lemma exists_attributes_eq_filter (options : CompileOptions) (query : Query) (room : Nat)
    (hc : place.Complements tokens) :
    ∃ keep : String → Bool, (place.compiled options query room tokens).attributes
      = (place.fields?.getD []).filter keep := by
  rw [compiled_eq_level, level, attributes?, if_pos (isComplement_asked_iff.mpr hc)]
  cases place.fields? with
  | none => exact ⟨fun _ => true, rfl⟩
  | some names => exact ⟨_, rfl⟩

/-- **A level lists each attribute once**, unless it has no shape and leaves out fields of a
model that declares one of the others more than once. -/
lemma nodup_attributes_iff (hd : place.Distinct) :
    (place.compiled options query room tokens).attributes.Nodup ↔
      ∀ view, place.shape = none → place.schema = some view → place.Complements tokens →
        ∀ name ∈ (place.compiled options query room tokens).attributes,
          view.attributeNames.count name = 1 := by
  by_cases hc : place.Complements tokens
  · obtain ⟨keep, hkeep⟩ := exists_attributes_eq_filter options query room hc
    rw [hkeep]
    cases hfields : place.fields? with
    | none =>
        have hnone := fields?_eq_none hfields
        exact iff_of_true List.nodup_nil fun view _ hschema => by simp [hnone.2] at hschema
    | some names =>
        cases hshape : place.shape with
        | some shape =>
            exact iff_of_true ((hd.nodup_fields? hshape hfields).filter keep)
              fun view hnone => nomatch hnone
        | none =>
            cases hschema : place.schema with
            | none => simp [fields?, hshape, hschema] at hfields
            | some view =>
                obtain rfl : view.attributeNames = names := by
                  simpa [fields?, hshape, hschema] using hfields
                rw [Option.getD_some, nodup_filter_iff]
                constructor
                · rintro h _ - ⟨⟩ -
                  exact h
                · intro h
                  exact h view rfl rfl hc
  · exact iff_of_true (nodup_attributes_of_not_complements hc)
      fun view _ _ hcomplements => absurd hcomplements hc

/-- Models that declare each attribute once make no level that lists one twice. -/
lemma DeclaresOnce.nodup_attributes (hp : place.DeclaresOnce) (hd : place.Distinct) :
    (place.compiled options query room tokens).attributes.Nodup := by
  refine (nodup_attributes_iff hd).mpr fun view hshape hschema _ name hname => ?_
  obtain ⟨hmodel, honce⟩ := hp view hschema
  have hdeclared := (declares_of_mentions (Or.inl hname)).schema view hschema
  exact List.count_eq_one_of_mem (honce view.model hmodel)
    (ModelView.mem_attributeNames_iff.mpr hdeclared)

end Place

/-! ### Whole descriptors -/

/-- **Attributes are listed once** at a level of a descriptor, unless the level has no shape and
leaves out fields of a model that declares one of the others more than once. No level of any
descriptor lists an attribute twice if the models of the registry declare each of theirs once. -/
theorem nodup_attributes_compile {compiler : Compiler} {query : Query} {path : List String}
    {level : Descriptor} (hshape : ∀ shape, compiler.shape = some shape → shape.Distinct)
    (h : (compiler.compile query).Reaches path level) :
    (∃ place, compiler.root.follow? path = some place ∧
      (level.attributes.Nodup ↔ ∀ view, place.shape = none → place.schema = some view →
        place.Complements (tokensAt path (compiler.tokens query)) →
          ∀ name ∈ level.attributes, view.attributeNames.count name = 1)) ∧
      ((∀ view, compiler.schema = some view →
        view.model ∈ view.registry.models ∧ view.registry.DeclaresOnce) →
          level.attributes.Nodup) := by
  obtain ⟨place, room, hplace, hbare⟩ := reaches_compile h
  have hroot : compiler.root.Distinct := hshape
  have hdistinct : place.Distinct := Place.of_follow? .enter? hroot hplace
  have hattributes : level.attributes = level.bare.attributes := rfl
  rw [hattributes, hbare]
  refine ⟨⟨place, hplace, Place.nodup_attributes_iff hdistinct⟩, fun honce => ?_⟩
  have hrootOnce : compiler.root.DeclaresOnce := honce
  have hplaceOnce : place.DeclaresOnce := Place.of_follow? .enter? hrootOnce hplace
  exact hplaceOnce.nodup_attributes hdistinct

/-- A registry of tools and their makers, whose model of tools declares their name twice. -/
def toolRegistry : Registry where
  models := [
    ⟨"tool", [⟨"id", some .primary⟩, ⟨"name", none⟩, ⟨"name", none⟩], [⟨"maker", "maker", .one⟩]⟩,
    ⟨"maker", [⟨"name", none⟩, ⟨"city", none⟩], [⟨"tools", "tool", .many⟩]⟩]

/-- Tools as a selection is checked against them. -/
def toolView : ModelView where
  registry := toolRegistry
  model := ⟨"tool", [⟨"id", some .primary⟩, ⟨"name", none⟩, ⟨"name", none⟩],
    [⟨"maker", "maker", .one⟩]⟩

/-- Leaves the ids of tools out, which are reached from their maker. -/
def toolQuery : Query where
  fields := some "name,maker(tools(-id))"

/-- The names of these tools are listed twice, as their model declares them twice. -/
theorem nodup_attributes_compile_tools :
    ∃ level, (Compiler.compile ⟨none, some toolView, {}⟩ toolQuery).Reaches ["maker", "tools"]
        level ∧ ¬ level.attributes.Nodup := by
  have hsome : ((Compiler.compile ⟨none, some toolView, {}⟩ toolQuery).at?
      ["maker", "tools"]).isSome := by decide
  obtain ⟨level, hlevel⟩ := Option.isSome_iff_exists.mp hsome
  have hshape : ∀ shape : Shape, none = some shape → shape.Distinct := by
    rintro _ ⟨⟩
  obtain ⟨⟨place, hplace, hiff⟩, -⟩ := nodup_attributes_compile hshape (.of_at? hlevel)
  have htools : Place.follow? ⟨none, some toolView, ""⟩ ["maker", "tools"]
      = some ⟨none, some toolView, "maker.tools"⟩ := rfl
  obtain rfl := Option.some.inj (htools.symm.trans hplace)
  have htokens : tokensAt ["maker", "tools"]
      (Compiler.tokens ⟨none, some toolView, {}⟩ toolQuery) = [.except "id"] := by decide
  have hattributes : ((Compiler.compile ⟨none, some toolView, {}⟩ toolQuery).at?
      ["maker", "tools"]).map (·.attributes) = some ["name", "name"] := by decide +kernel
  rw [hlevel, Option.map_some, Option.some.injEq] at hattributes
  rw [htokens, hattributes] at hiff
  refine ⟨level, .of_at? hlevel, fun hn => ?_⟩
  rw [hattributes] at hn
  have honce := hiff.mp hn toolView rfl rfl (Or.inr ⟨"id", by decide, Or.inl (by decide)⟩) "name"
    (by decide)
  exact absurd honce (by decide)

/-- A valid registry makes a descriptor that lists an attribute twice. -/
theorem attributes_repeated :
    toolRegistry.validate = .ok () ∧ toolRegistry.view? "tool" = some toolView ∧
      (Compiler.compile ⟨none, some toolView, {}⟩ {}).attributes = ["id", "name", "name"] ∧
      ¬ (Compiler.compile ⟨none, some toolView, {}⟩ {}).attributes.Nodup := by
  decide

end FieldSelection
