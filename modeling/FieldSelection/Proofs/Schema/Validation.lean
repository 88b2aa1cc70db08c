import Mathlib.Data.List.Nodup
import Mathlib.Tactic.Common
import FieldSelection.Schema.Registry

/-!
Valid registries.

A registry is checked twice: for names that models share, and then for associations that lead to
no model. What is left is a graph in which every association that a model declares leads to one
model, so that nothing goes wrong on the way along associations.

* `Registry.FirstRepeated`, `Registry.FirstDangling`: what the two checks find, by its place in the
  registry.
* `Registry.validate_eq_error_iff`, `Registry.validate_eq_ok_iff`: the outcome of the validation;
  repeated names are reported before dangling associations.
* `ModelView.LeadsTo`: where an association leads in the registry.
* `ModelView.target?_eq_some_iff`, `ModelView.isSome_target?_iff`: in a valid registry exactly the
  declared associations are followed, to the one model that they name.
-/

namespace FieldSelection

/-- A model declares an association of that name. -/
def Model.Declares (model : Model) (name : String) : Prop :=
  ∃ association ∈ model.associations, association.name = name

namespace Registry

/-- The names of the models in order. -/
def names (registry : Registry) : List String :=
  registry.models.map (·.name)

/-- The name of the first model that shares its name with one before it. -/
def FirstRepeated (registry : Registry) (name : String) : Prop :=
  ∃ before model after, registry.models = before ++ model :: after ∧ model.name = name ∧
    name ∈ before.map (·.name) ∧ (before.map (·.name)).Nodup

/-- The first association, with its model, that leads to no model: those of the models before it
and those before it in its own model all lead to models. -/
def FirstDangling (registry : Registry) (model : Model) (association : Association) : Prop :=
  ∃ before after earlier later,
    registry.models = before ++ model :: after ∧
      model.associations = earlier ++ association :: later ∧
      association.target ∉ registry.names ∧
      (∀ other ∈ before, ∀ fine ∈ other.associations, fine.target ∈ registry.names) ∧
      ∀ fine ∈ earlier, fine.target ∈ registry.names

/-! ### Repeated names -/

/-- The search for a repeated name, where the names so far are not repeated: it stops at the first
model that has one of the names so far or the name of a model before it. -/
lemma firstDuplicate_eq_some_iff {seen : List String} (hseen : seen.Nodup) {models : List Model}
    {name : String} :
    firstDuplicate seen models = some name ↔
      ∃ before model after, models = before ++ model :: after ∧ model.name = name ∧
        name ∈ before.map (·.name) ++ seen ∧ (before.map (·.name) ++ seen).Nodup := by
  induction models generalizing seen with
  | nil => simp [firstDuplicate]
  | cons first models ih =>
      rw [firstDuplicate]
      by_cases hfirst : first.name ∈ seen
      · rw [if_pos hfirst, Option.some.injEq]
        constructor
        · rintro rfl
          exact ⟨[], first, models, rfl, rfl, hfirst, hseen⟩
        · rintro ⟨before, model, after, hmodels, hname, -, hnodup⟩
          cases before with
          | nil =>
              obtain ⟨rfl, -⟩ := List.cons.inj hmodels
              exact hname
          | cons other before =>
              -- the first model would be among those that repeat nothing
              obtain ⟨rfl, -⟩ := List.cons.inj hmodels
              exact absurd (List.mem_append_right _ hfirst) (List.nodup_cons.mp hnodup).1
      · rw [if_neg hfirst, ih (List.nodup_cons.mpr ⟨hfirst, hseen⟩)]
        constructor
        · rintro ⟨before, model, after, rfl, hname, hmem, hnodup⟩
          refine ⟨first :: before, model, after, rfl, hname, ?_, ?_⟩
          · exact (List.perm_middle.mem_iff).mp hmem
          · exact List.nodup_middle.mp hnodup
        · rintro ⟨before, model, after, hmodels, hname, hmem, hnodup⟩
          cases before with
          | nil =>
              obtain ⟨rfl, -⟩ := List.cons.inj hmodels
              exact absurd (hname ▸ hmem) hfirst
          | cons other before =>
              obtain ⟨rfl, hrest⟩ := List.cons.inj hmodels
              exact ⟨before, model, after, hrest, hname, (List.perm_middle.mem_iff).mpr hmem,
                List.nodup_middle.mpr hnodup⟩

lemma firstDuplicate_eq_none_iff {seen : List String} (hseen : seen.Nodup) {models : List Model} :
    firstDuplicate seen models = none ↔ (models.map (·.name) ++ seen).Nodup := by
  induction models generalizing seen with
  | nil => simp [firstDuplicate, hseen]
  | cons first models ih =>
      rw [firstDuplicate, List.map_cons, List.cons_append]
      by_cases hfirst : first.name ∈ seen
      · rw [if_pos hfirst]
        refine iff_of_false (Option.some_ne_none _) fun hnodup => ?_
        exact (List.nodup_cons.mp hnodup).1 (List.mem_append_right _ hfirst)
      · rw [if_neg hfirst, ih (List.nodup_cons.mpr ⟨hfirst, hseen⟩), List.nodup_middle]

variable {registry : Registry}

/-- **The name that is found** is that of the first model that repeats one. -/
lemma firstDuplicate_nil_eq_some_iff {name : String} :
    firstDuplicate [] registry.models = some name ↔ registry.FirstRepeated name := by
  rw [firstDuplicate_eq_some_iff List.nodup_nil]
  simp only [List.append_nil]
  rfl

/-- None is found exactly if no name is repeated. -/
lemma firstDuplicate_nil_eq_none_iff :
    firstDuplicate [] registry.models = none ↔ registry.names.Nodup := by
  rw [firstDuplicate_eq_none_iff List.nodup_nil, List.append_nil]
  rfl

/-- Some model is the first to repeat a name exactly if a name is repeated. -/
lemma exists_firstRepeated_iff :
    (∃ name, registry.FirstRepeated name) ↔ ¬ registry.names.Nodup := by
  simp only [← firstDuplicate_nil_eq_some_iff, ← firstDuplicate_nil_eq_none_iff]
  exact Option.ne_none_iff_exists'.symm

/-! ### Dangling associations -/

/-- Searching the associations of all models is searching model by model. -/
lemma find?_associations (registry : Registry) (p : Association → Bool) :
    (registry.associations.find? fun entry => p entry.2)
      = registry.models.findSome? fun model =>
          (model.associations.find? p).map (model.name, ·) := by
  rw [associations, List.find?_flatMap]
  simp only [List.find?_map, Function.comp_def]

/-- **The association that is found** is the first one that leads to no model. -/
lemma find?_associations_eq_some_iff {entry : String × Association} :
    (registry.associations.find? fun entry => entry.2.target ∉ registry.names) = some entry ↔
      ∃ model association, entry = (model.name, association) ∧
        registry.FirstDangling model association := by
  have hfine : ∀ model : Model,
      ((model.associations.find? fun a => decide (a.target ∉ registry.names)).map
          (model.name, ·) = none ↔ ∀ fine ∈ model.associations, fine.target ∈ registry.names) := by
    intro model
    simp
  rw [find?_associations registry fun association => decide (association.target ∉ registry.names),
    List.findSome?_eq_some_iff]
  simp only [hfine, Option.map_eq_some_iff, List.find?_eq_some_iff_append, decide_eq_true_eq,
    Bool.not_eq_true', decide_eq_false_iff_not, not_not]
  constructor
  · rintro ⟨before, model, after, hmodels, ⟨association, ⟨htarget, earlier, later, hlist,
      hearlier⟩, rfl⟩, hbefore⟩
    exact ⟨model, association, rfl, before, after, earlier, later, hmodels, hlist, htarget,
      hbefore, hearlier⟩
  · rintro ⟨model, association, rfl, before, after, earlier, later, hmodels, hlist, htarget,
      hbefore, hearlier⟩
    exact ⟨before, model, after, hmodels, ⟨association, ⟨htarget, earlier, later, hlist, hearlier⟩,
      rfl⟩, hbefore⟩

/-- None is found exactly if all associations lead to models. -/
lemma find?_associations_eq_none_iff :
    (registry.associations.find? fun entry => entry.2.target ∉ registry.names) = none ↔
      ∀ model ∈ registry.models, ∀ association ∈ model.associations,
        association.target ∈ registry.names := by
  rw [find?_associations registry fun association => decide (association.target ∉ registry.names),
    List.findSome?_eq_none_iff]
  simp

/-! ### The outcome -/

lemma validate_eq (registry : Registry) : registry.validate =
    match firstDuplicate [] registry.models with
    | some name => .error (.duplicateModel name)
    | none =>
      match registry.associations.find? fun entry => entry.2.target ∉ registry.names with
      | some (model, association) =>
        .error (.unknownTarget model association.name association.target)
      | none => .ok () :=
  rfl

/-- **Validation fails** for the first repeated name, and if there is none for the first association
that leads to no model. -/
lemma validate_eq_error_iff {error : SchemaError} :
    registry.validate = .error error ↔
      (∃ name, error = .duplicateModel name ∧ registry.FirstRepeated name) ∨
        registry.names.Nodup ∧ ∃ model association,
          error = .unknownTarget model.name association.name association.target ∧
            registry.FirstDangling model association := by
  rw [validate_eq]
  cases hrepeated : firstDuplicate [] registry.models with
  | some name =>
      have hname := firstDuplicate_nil_eq_some_iff.mp hrepeated
      have hnodup : ¬ registry.names.Nodup := exists_firstRepeated_iff.mp ⟨name, hname⟩
      simp only [hnodup, false_and, or_false, ← firstDuplicate_nil_eq_some_iff, hrepeated,
        Option.some.injEq, Except.error.injEq]
      constructor
      · rintro rfl
        exact ⟨name, rfl, rfl⟩
      · rintro ⟨other, rfl, rfl⟩
        rfl
  | none =>
      have hnodup := firstDuplicate_nil_eq_none_iff.mp hrepeated
      simp only [hnodup, true_and, ← firstDuplicate_nil_eq_some_iff, hrepeated, reduceCtorEq,
        and_false, exists_false, false_or]
      cases hdangling :
          registry.associations.find? fun entry => entry.2.target ∉ registry.names with
      | some entry =>
          obtain ⟨model, association, rfl, hfirst⟩ := find?_associations_eq_some_iff.mp hdangling
          simp only [Except.error.injEq]
          constructor
          · rintro rfl
            exact ⟨model, association, rfl, hfirst⟩
          · rintro ⟨other, fault, rfl, hother⟩
            -- there is one first association only, since the search finds it
            have hsame := hdangling.symm.trans
              (find?_associations_eq_some_iff.mpr ⟨other, fault, rfl, hother⟩)
            obtain ⟨hname, rfl⟩ := Prod.mk.inj (Option.some.inj hsame)
            rw [hname]
      | none =>
          simp only [reduceCtorEq, false_iff]
          rintro ⟨model, association, -, hfirst⟩
          have hfound := find?_associations_eq_some_iff.mpr ⟨model, association, rfl, hfirst⟩
          rw [hdangling] at hfound
          cases hfound

/-- **Validation succeeds** where no name is repeated and all associations lead to models. -/
lemma validate_eq_ok_iff :
    registry.validate = .ok () ↔
      registry.names.Nodup ∧ ∀ model ∈ registry.models, ∀ association ∈ model.associations,
        association.target ∈ registry.names := by
  rw [validate_eq, ← firstDuplicate_nil_eq_none_iff, ← find?_associations_eq_none_iff]
  cases firstDuplicate [] registry.models with
  | some name => simp
  | none =>
      cases registry.associations.find? fun entry => entry.2.target ∉ registry.names <;> simp

/-! ### Models of a registry -/

/-- Where no name is repeated, a name that is there stands for one model. -/
lemma filter_name_eq (hn : registry.names.Nodup) {model : Model} (h : model ∈ registry.models) :
    (registry.models.filter fun other => other.name = model.name) = [model] := by
  obtain ⟨before, after, hmodels⟩ := List.append_of_mem h
  rw [names, hmodels, List.map_append, List.map_cons, List.nodup_middle, List.nodup_cons,
    List.mem_append, not_or] at hn
  have hother : ∀ models : List Model, model.name ∉ models.map (·.name) →
      (models.filter fun other => other.name = model.name) = [] := by
    intro models hname
    refine List.filter_eq_nil_iff.mpr fun other hmem heq => hname ?_
    rw [← of_decide_eq_true heq]
    exact List.mem_map_of_mem hmem
  rw [hmodels, List.filter_append, hother before hn.1.1, List.nil_append,
    List.filter_cons_of_pos (by simp), hother after hn.1.2]

/-- Where no name is repeated, the model of a name is the only one of that name. -/
lemma model?_eq_some_iff (hn : registry.names.Nodup) {name : String} {model : Model} :
    registry.model? name = some model ↔
      (registry.models.filter fun other => other.name = name) = [model] := by
  rw [model?]
  constructor
  · intro h
    have hname := List.find?_some h
    rw [← filter_name_eq hn (List.mem_of_find?_eq_some h), of_decide_eq_true hname]
  · intro h
    rw [← List.head?_filter, h, List.head?_cons]

end Registry

/-! ### Associations -/

namespace ModelView

variable {view next : ModelView} {name : String}

/-- Where an association leads: of the associations of that name the first one counts, and it leads
to the only model that has the name of its target. -/
def LeadsTo (view : ModelView) (name : String) (next : ModelView) : Prop :=
  ∃ earlier association later,
    view.model.associations = earlier ++ association :: later ∧ association.name = name ∧
      (∀ other ∈ earlier, other.name ≠ name) ∧
      (view.registry.models.filter fun model => model.name = association.target)
        = [next.model] ∧
      next = { view with model := next.model }

/-- An association leads to a model of the same registry. -/
lemma mem_models_of_target? (h : view.target? name = some next) :
    next.registry = view.registry ∧ next.model ∈ view.registry.models := by
  obtain ⟨association, -, h⟩ := Option.bind_eq_some_iff.mp h
  obtain ⟨model, hmodel, heq⟩ := Option.bind_eq_some_iff.mp h
  cases heq
  exact ⟨rfl, List.mem_of_find?_eq_some hmodel⟩

/-- **Associations lead where they say**, where no two models share a name. -/
lemma target?_eq_some_iff (hn : view.registry.names.Nodup) :
    view.target? name = some next ↔ view.LeadsTo name next := by
  obtain ⟨registry, model, namesOnly⟩ := next
  simp only [target?, Option.bind_eq_bind, Option.bind_eq_some_iff, Model.association?,
    List.find?_eq_some_iff_append, Registry.model?_eq_some_iff hn, decide_eq_true_eq,
    Bool.not_eq_true', decide_eq_false_iff_not, Option.some.injEq, LeadsTo]
  constructor
  · rintro ⟨association, ⟨hname, earlier, later, hlist, hearlier⟩, target, htarget, heq⟩
    cases heq
    exact ⟨earlier, association, later, hlist, hname, hearlier, htarget, rfl⟩
  · rintro ⟨earlier, association, later, hlist, hname, hearlier, htarget, heq⟩
    exact ⟨association, ⟨hname, earlier, later, hlist, hearlier⟩, model, htarget, heq.symm⟩

/-- **Exactly the declared associations are followed** in a valid registry. -/
lemma isSome_target?_iff (hvalid : view.registry.validate = .ok ())
    (hmodel : view.model ∈ view.registry.models) :
    (view.target? name).isSome = true ↔ view.model.Declares name := by
  obtain ⟨hn, htargets⟩ := Registry.validate_eq_ok_iff.mp hvalid
  constructor
  · intro h
    obtain ⟨next, hnext⟩ := Option.isSome_iff_exists.mp h
    obtain ⟨earlier, association, later, hlist, hname, -⟩ := (target?_eq_some_iff hn).mp hnext
    exact ⟨association, hlist ▸ List.mem_append_right _ List.mem_cons_self, hname⟩
  · rintro ⟨association, hassociation, hname⟩
    have hdeclared : (view.model.association? name).isSome = true :=
      List.find?_isSome.mpr ⟨association, hassociation, decide_eq_true hname⟩
    obtain ⟨first, hfirst⟩ := Option.isSome_iff_exists.mp hdeclared
    have htarget := htargets view.model hmodel first (List.mem_of_find?_eq_some hfirst)
    obtain ⟨model, hmem, heq⟩ := List.mem_map.mp htarget
    have hfound : (view.registry.model? first.target).isSome = true :=
      List.find?_isSome.mpr ⟨model, hmem, decide_eq_true heq⟩
    obtain ⟨target, hmodel⟩ := Option.isSome_iff_exists.mp hfound
    simp [target?, hfirst, hmodel]

end ModelView

end FieldSelection
