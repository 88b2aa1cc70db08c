import FieldSelection.Proofs.Compiler.Bounds
import FieldSelection.Proofs.Level.Answers
import FieldSelection.Proofs.Schema.Validation

/-!
Associations of a valid registry.

The models of a valid registry lead from one to the next without end, in cycles too, and nowhere
else. A selection without a shape is checked against them alone, so the relations that it names are
listed exactly where they are declared.

* `ModelView.FollowsDeclared`: what holds along all chains of associations from a model, and of the
  descriptors that are compiled against it.
* `ModelView.mem_models_of_follow?`: chains stay in the registry.
* `Place.isSome_enter?_of_schema`: without a shape, a relation is known exactly if the model follows
  the association.
* `Registry.validate_exact`: what validation tells about a registry.
-/

namespace FieldSelection

open FieldSelection.Selection

namespace ModelView

/-- **Associations are followed as they are declared**, along every chain of them from a model: the
models on the way follow exactly the associations that they declare, to where these lead, and a
level that is compiled without a shape lists exactly the relations with a name that its tokens name
and the model there declares, as long as the nesting limit leaves room. -/
structure FollowsDeclared (view : ModelView) : Prop where
  followed : ∀ path reached, view.follow? path = some reached → ∀ name,
    (reached.target? name).isSome = true ↔ reached.model.Declares name
  leadsTo : ∀ path reached, view.follow? path = some reached → ∀ name next,
    reached.target? name = some next ↔ reached.LeadsTo name next
  listed : ∀ options query path level,
    (Compiler.compile ⟨none, some view, options⟩ query).Reaches path level →
    path.length < options.maxDepth →
      ∃ reached, view.follow? path = some reached ∧ ∀ name body, name ≠ "" →
        .relation name body ∈ tokensAt path (Compiler.tokens ⟨none, some view, options⟩ query) →
          ((level.include? name).isSome = true ↔ reached.model.Declares name)

/-- Chains of associations stay in the registry. -/
lemma mem_models_of_follow? {view reached : ModelView} {path : List String}
    (hmodel : view.model ∈ view.registry.models) (h : view.follow? path = some reached) :
    reached.registry = view.registry ∧ reached.model ∈ view.registry.models := by
  induction path generalizing view with
  | nil =>
      cases h
      exact ⟨rfl, hmodel⟩
  | cons name path ih =>
      obtain ⟨next, hnext, hreached⟩ := Option.bind_eq_some_iff.mp h
      obtain ⟨hregistry, hmem⟩ := mem_models_of_target? hnext
      rw [← hregistry] at hmem ⊢
      exact ih hmem hreached

end ModelView

namespace Place

variable {place : Place} {view : ModelView} {name : String}

/-- Without a shape, a relation with a name is known exactly if the model follows it. -/
lemma isSome_enter?_of_schema (hshape : place.shape = none) (hschema : place.schema = some view)
    (hname : name ≠ "") : (place.enter? name).isSome = (view.target? name).isSome := by
  obtain ⟨shape, schema, path⟩ := place
  cases hshape
  cases hschema
  rw [enter?, if_neg hname]
  simp only [enterShape?, enterSchema?]
  cases view.target? name <;> rfl

/-- A level with room lists a relation that its tokens name exactly if its place knows it. -/
lemma isSome_include?_of_named {options : CompileOptions} {query : Query} {room : Nat}
    {tokens : List Token} (hnamed : name ∈ relationNames tokens) :
    ((place.compiled options query (room + 1) tokens).include? name).isSome
      = (place.enter? name).isSome := by
  rw [include?_compiled_succ, if_pos (Or.inl hnamed), below, Option.isSome_map]

end Place

namespace Registry

/-- **A valid registry** is followed as it declares, from each of its models. -/
lemma followsDeclared {registry : Registry} (hvalid : registry.validate = .ok ()) {view : ModelView}
    (hregistry : view.registry = registry) (hmodel : view.model ∈ registry.models) :
    view.FollowsDeclared := by
  subst hregistry
  have hfollowed : ∀ path reached, view.follow? path = some reached → ∀ name,
      (reached.target? name).isSome = true ↔ reached.model.Declares name := by
    intro path reached hreached name
    obtain ⟨hregistry, hmem⟩ := ModelView.mem_models_of_follow? hmodel hreached
    rw [← hregistry] at hvalid hmem
    exact ModelView.isSome_target?_iff hvalid hmem
  refine ⟨hfollowed, fun path reached hreached name next => ?_, ?_⟩
  · obtain ⟨hregistry, -⟩ := ModelView.mem_models_of_follow? hmodel hreached
    rw [← hregistry] at hvalid
    exact ModelView.target?_eq_some_iff (validate_eq_ok_iff.mp hvalid).1
  · intro options query path level hlevel hlength
    obtain ⟨place, left, hleft, hplace, hbare⟩ := reaches_compile_within hlevel
    have hroot : (Compiler.root ⟨none, some view, options⟩).schema = some view := rfl
    obtain ⟨reached, hreached, hschema⟩ := Place.schema_of_follow? hroot hplace
    have hshape : place.shape = none :=
      Place.of_follow? Place.shape_eq_none_of_enter? rfl hplace
    refine ⟨reached, hreached, fun name body hname htoken => ?_⟩
    have hroom : left ≠ 0 := by
      rintro rfl
      exact hlength.ne hleft
    obtain ⟨room, rfl⟩ := Nat.exists_eq_succ_of_ne_zero hroom
    have hnamed : name ∈ relationNames
        (tokensAt path (Compiler.tokens ⟨none, some view, options⟩ query)) :=
      mem_relationNames.mpr ⟨body, htoken⟩
    rw [← level.include?_bare, hbare, Place.isSome_include?_of_named hnamed,
      Place.isSome_enter?_of_schema hshape hschema hname]
    exact hfollowed path reached hreached name

/-- **Validation is exact, and makes chains of associations total.** It fails for the name of the
first model that repeats one, which there is if two models share a name; else for the first
association in the order of the models that leads to no model; and else it succeeds. Then every
model of the registry, and every model that a chain of associations leads to, follows exactly the
associations that it declares, each to the one model that it names, and so do descriptors. -/
theorem validate_exact (registry : Registry) :
    (∀ name, registry.validate = .error (.duplicateModel name) ↔ registry.FirstRepeated name) ∧
      ((∃ name, registry.FirstRepeated name) ↔ ¬ registry.names.Nodup) ∧
      (∀ error, registry.validate = .error error ↔
        (∃ name, error = .duplicateModel name ∧ registry.FirstRepeated name) ∨
          registry.names.Nodup ∧ ∃ model association,
            error = .unknownTarget model.name association.name association.target ∧
              registry.FirstDangling model association) ∧
      (registry.validate = .ok () ↔
        registry.names.Nodup ∧ ∀ model ∈ registry.models, ∀ association ∈ model.associations,
          association.target ∈ registry.names) ∧
      (registry.validate = .ok () → ∀ view : ModelView, view.registry = registry →
        view.model ∈ registry.models → view.FollowsDeclared) := by
  refine ⟨fun name => ?_, exists_firstRepeated_iff, fun error => validate_eq_error_iff,
    validate_eq_ok_iff, fun hvalid view => followsDeclared hvalid⟩
  rw [validate_eq_error_iff]
  simp

end Registry

/-- Authors and their books, which lead back to them; a book names two associations alike. -/
def libraryRegistry : Registry where
  models := [
    ⟨"author", [⟨"name", none⟩], [⟨"books", "book", .many⟩]⟩,
    ⟨"book", [⟨"title", none⟩],
      [⟨"author", "author", .one⟩, ⟨"series", "book", .many⟩, ⟨"author", "book", .one⟩]⟩]

/-- Authors as a selection is checked against them. -/
def authorView : ModelView where
  registry := libraryRegistry
  model := ⟨"author", [⟨"name", none⟩], [⟨"books", "book", .many⟩]⟩

/-- Follows a cycle, and asks there for a relation that the model has and for one that it has
not. -/
def libraryQuery : Query where
  fields := some "books(author(books(series(title),shop(),title)))"

/-- Authors with two associations that lead nowhere. -/
def shopRegistry : Registry where
  models := [
    ⟨"author", [⟨"name", none⟩], [⟨"friends", "author", .many⟩, ⟨"shop", "shop", .one⟩]⟩,
    ⟨"book", [⟨"title", none⟩], [⟨"press", "press", .one⟩]⟩]

/-- The library is valid, and behind a cycle the series of a book is listed and a shop is not. Of
two associations that lead nowhere the first is reported, unless a model is repeated. -/
theorem validate_exact_library :
    libraryRegistry.validate = .ok () ∧
      (∃ level, (Compiler.compile ⟨none, some authorView, {}⟩ libraryQuery).Reaches
          ["books", "author", "books"] level ∧
        (level.include? "series").isSome = true ∧ (level.include? "shop").isSome = false) ∧
      shopRegistry.validate = .error (.unknownTarget "author" "shop" "shop") ∧
      Registry.validate ⟨shopRegistry.models ++ shopRegistry.models⟩
        = .error (.duplicateModel "author") := by
  obtain ⟨-, -, -, hok, hfollows⟩ := Registry.validate_exact libraryRegistry
  obtain ⟨-, -, herror, -, -⟩ := Registry.validate_exact shopRegistry
  obtain ⟨hrepeated, -⟩ := Registry.validate_exact ⟨shopRegistry.models ++ shopRegistry.models⟩
  have hvalid : libraryRegistry.validate = .ok () := hok.mpr (by decide)
  refine ⟨hvalid, ?_, (herror _).mpr (Or.inr ⟨by decide, ?_⟩), (hrepeated "author").mpr ?_⟩
  · have hsome : ((Compiler.compile ⟨none, some authorView, {}⟩ libraryQuery).at?
        ["books", "author", "books"]).isSome := by decide +kernel
    obtain ⟨level, hlevel⟩ := Option.isSome_iff_exists.mp hsome
    obtain ⟨reached, hreached, hlisted⟩ :=
      (hfollows hvalid authorView rfl (by decide)).listed {} libraryQuery
        ["books", "author", "books"] level (.of_at? hlevel) (by decide)
    have htokens : tokensAt ["books", "author", "books"]
          (Compiler.tokens ⟨none, some authorView, {}⟩ libraryQuery)
        = [.relation "series" "title", .relation "shop" "all", .field "title"] := by
      decide +kernel
    have hbook : reached.model = libraryRegistry.models[1] :=
      congrArg ModelView.model (Option.some.inj (hreached.symm.trans rfl))
    have hseries := hlisted "series" "title" (by decide) (htokens ▸ by decide)
    have hshop := hlisted "shop" "all" (by decide) (htokens ▸ by decide)
    rw [hbook] at hseries hshop
    refine ⟨level, .of_at? hlevel, hseries.mpr ?_, eq_false_of_ne_true (mt hshop.mp ?_)⟩
    · exact ⟨⟨"series", "book", .many⟩, by decide, rfl⟩
    · rintro ⟨association, hmem, hname⟩
      revert association
      decide
  · exact ⟨_, ⟨"shop", "shop", .one⟩, rfl, [], _, [⟨"friends", "author", .many⟩], [], rfl, rfl,
      by decide, by simp, by decide⟩
  · exact ⟨shopRegistry.models, _, _, rfl, rfl, by decide, by decide⟩

end FieldSelection
