import FieldSelection.Proofs.Level.Filters

/-!
Promoted filters.

Filters come from two sides: tokens write them with fields, and the query has filters by
dotted path. What the query filters on at a level is promoted to the level, where it wins.

* `Descriptor.Promotes`: the filters that are promoted to a level.
* `Descriptor.FilteredBy`: a level that filters on what is promoted to it, and else on what
  its tokens write.
* `compile_filters`: every level of a descriptor is like that, and nothing else depends on
  the filters of the query.
-/

namespace FieldSelection

open FieldSelection.Selection

/-! ### One level -/

/-- Whether the query promotes a value to a level at the end of a path: the level admits
filters on the name, and the query has the value under the dotted path of the name. `null`
and the empty text filter nothing. -/
def Descriptor.Promotes (level : Descriptor) (query : Query) (path : List String)
    (name : String) (value : Json) : Prop :=
  level.Admits name ∧ Entries.lookup? (dotted path name) query.filters = some value ∧
    value ≠ .null ∧ value ≠ .string ""

/-- A level at the end of a path filters on what the query promotes to it, and on what is
written with its fields where the query promotes nothing. The filters have to match if
something is promoted. -/
structure Descriptor.FilteredBy (level : Descriptor) (query : Query) (path : List String)
    (inline? : String → Option FilterValue) : Prop where
  sorted : Entries.Sorted level.filters
  promoted : ∀ name value, level.Promotes query path name value →
    Entries.lookup? name level.filters = some (.ofQuery value)
  inline : ∀ name, (∀ value, ¬ level.Promotes query path name value) →
    Entries.lookup? name level.filters = inline? name
  required_true : level.required = some true ↔
    ∃ name value, level.Promotes query path name value
  required_false : level.required = some false ↔
    (∀ name value, ¬ level.Promotes query path name value) ∧ ∃ name, (inline? name).isSome
  required_none : level.required = none ↔ level.filters = []

lemma Query.filter?_eq_some_iff {query : Query} {path : String} {value : Json} :
    query.filter? path = some value ↔
      Entries.lookup? path query.filters = some value ∧ value ≠ .null ∧ value ≠ .string "" := by
  simp [filter?, Option.filter_eq_some_iff, isFilter]

lemma Descriptor.promotes_iff {level : Descriptor} {query : Query} {path : List String}
    {name : String} {value : Json} :
    level.Promotes query path name value ↔
      level.Admits name ∧ query.filter? (dotted path name) = some value := by
  rw [Promotes, Query.filter?_eq_some_iff]

lemma Descriptor.forall_not_promotes_iff {level : Descriptor} {query : Query}
    {path : List String} {name : String} :
    (∀ value, ¬ level.Promotes query path name value) ↔
      (level.Admits name → query.filter? (dotted path name) = none) := by
  simp only [promotes_iff, not_and, Option.eq_none_iff_forall_ne_some]
  exact forall_comm

/-- **A level filters on what is promoted to it**, and else on what its tokens write. -/
lemma Place.filteredBy_compiled (options : CompileOptions) (query : Query) (room : Nat)
    (place : Place) (tokens : List Token) {path : List String}
    (hpath : ∀ name, joinPath place.path name = dotted path name) :
    (place.compiled options query room tokens).FilteredBy query path
      (place.inline? options.includeKeys tokens) where
  sorted := sorted_filters_compiled
  promoted name value h := by
    obtain ⟨hadmits, hvalue⟩ := Descriptor.promotes_iff.mp h
    rw [lookup?_filters_compiled, if_pos hadmits, hpath, hvalue]
    rfl
  inline name h := by
    rw [lookup?_filters_compiled]
    split
    · next hadmits =>
      rw [hpath, Descriptor.forall_not_promotes_iff.mp h hadmits]
      rfl
    · rfl
  required_true := by
    simp only [Descriptor.promotes_iff, ← hpath]
    rw [compiled_eq_level]
    exact required_eq_true_iff
  required_false := by
    have hwritten : (place.asked options.includeKeys tokens).filters ≠ []
        ↔ ∃ name, (place.inline? options.includeKeys tokens name).isSome := by
      rw [Ne, Entries.eq_nil_iff_lookup?]
      simp only [lookup?_filters_asked, not_forall, ← ne_eq, Option.isSome_iff_ne_none]
    simp only [Descriptor.forall_not_promotes_iff, ← hpath]
    rw [← hwritten, compiled_eq_level]
    exact required_eq_false_iff
  required_none := by
    rw [compiled_eq_level]
    exact required_eq_none_iff

/-- The filters of a level do not depend on what only a root or an association has. -/
lemma Descriptor.filteredBy_bare {level : Descriptor} {query : Query} {path : List String}
    {inline? : String → Option FilterValue} (h : level.bare.FilteredBy query path inline?) :
    level.FilteredBy query path inline? :=
  ⟨h.sorted, h.promoted, h.inline, h.required_true, h.required_false, h.required_none⟩

/-! ### Whole descriptors -/

/-- Apart from filters, the descriptor of a query does not depend on the filters of the
query. -/
lemma Compiler.unfiltered_compile (compiler : Compiler) (query : Query)
    (filters : List (String × Json)) :
    (compiler.compile { query with filters }).unfiltered
      = (compiler.compile query).unfiltered := by
  have hroot : ∀ filters, (compiler.compile { query with filters }).unfiltered =
      { (compiler.root.compiled compiler.options { query with filters }
          compiler.options.maxDepth (compiler.tokens query)).unfiltered with
        limit := Query.valueOf query.limit
        offset := Query.valueOf query.offset
        col := Query.valueOf query.col
        distinct := Query.valueOf query.distinct
        order := query.order.elim [] fun text => parseOrder text.toList } := by
    intro filters
    rw [compile_eq, Descriptor.unfiltered_eq, Descriptor.unfiltered_eq]
    rfl
  rw [hroot, unfiltered_compiled _ _ query]
  exact (hroot query.filters).symm

/-- **Filters of the query are promoted to the levels they are on**, to every level of a
descriptor, and they have no other effect: without its filters, a descriptor does not
depend on the filters of the query, and neither do the notes about the selection. -/
theorem compile_filters (compiler : Compiler) (query : Query) :
    (∀ path level, (compiler.compile query).Reaches path level →
      ∃ place, compiler.root.follow? path = some place ∧
        level.FilteredBy query path
          (place.inline? compiler.options.includeKeys
            (tokensAt path (compiler.tokens query)))) ∧
      ∀ filters, (compiler.compile { query with filters }).unfiltered
          = (compiler.compile query).unfiltered ∧
        compiler.notes { query with filters } = compiler.notes query := by
  constructor
  · intro path level h
    obtain ⟨place, room, hplace, hbare⟩ := reaches_compile h
    refine ⟨place, hplace, Descriptor.filteredBy_bare ?_⟩
    rw [hbare]
    exact Place.filteredBy_compiled _ _ _ _ _ (Compiler.joinPath_follow? hplace)
  · intro filters
    exact ⟨compiler.unfiltered_compile query filters, rfl⟩

/-- The shape of people who send parcels. -/
def senderShape : Shape :=
  [("id", .field (some .primary)), ("name", .field none), ("city", .field none)]

/-- A compiler for parcels in keys mode. -/
def parcels : Compiler where
  shape := some [("weight", .field none), ("sender", .one senderShape)]
  options := { includeKeys := true }

/-- Filters on the senders of parcels, from both sides. -/
def parcelQuery : Query where
  fields := some "weight,sender(name=Ann,city=Linz,id),sender(city=Ulm)"
  filters := [("sender.name", .string "Bo,Cy"), ("sender.city", .string ""),
    ("sender.id", .null), ("name", .string "Dee")]

/-- The name of a sender is filtered on by the query, the city by the last token for it. -/
theorem compile_filters_parcels :
    ∃ level, (parcels.compile parcelQuery).Reaches ["sender"] level ∧
      Entries.lookup? "name" level.filters = some (.many [.string "Bo", .string "Cy"]) ∧
      Entries.lookup? "city" level.filters = some (.one (.string "Ulm")) ∧
      Entries.lookup? "id" level.filters = none ∧
      level.required = some true ∧
      (parcels.compile { parcelQuery with filters := [] }).unfiltered
        = (parcels.compile parcelQuery).unfiltered := by
  obtain ⟨hlevels, hunfiltered⟩ := compile_filters parcels parcelQuery
  have hsome : ((parcels.compile parcelQuery).at? ["sender"]).isSome := by decide
  obtain ⟨level, hlevel⟩ := Option.isSome_iff_exists.mp hsome
  have hsender : parcels.root.follow? ["sender"] = some ⟨some senderShape, none, "sender"⟩ := rfl
  obtain ⟨place, hplace, hfiltered⟩ := hlevels ["sender"] level (.of_at? hlevel)
  obtain rfl := Option.some.inj (hsender.symm.trans hplace)
  have hattributes : ((parcels.compile parcelQuery).at? ["sender"]).map (·.attributes)
      = some ["name", "city", "id"] := by decide +kernel
  rw [hlevel, Option.map_some, Option.some.injEq] at hattributes
  have hname : level.Promotes parcelQuery ["sender"] "name" (.string "Bo,Cy") :=
    ⟨Or.inl (by rw [hattributes]; decide), rfl, by simp, by simp⟩
  have hcity : ∀ value, ¬ level.Promotes parcelQuery ["sender"] "city" value := by
    rintro value ⟨-, hvalue, -, hempty⟩
    exact hempty (Option.some.inj (hvalue.symm.trans rfl))
  have hid : ∀ value, ¬ level.Promotes parcelQuery ["sender"] "id" value := by
    rintro value ⟨-, hvalue, hnull, -⟩
    exact hnull (Option.some.inj (hvalue.symm.trans rfl))
  exact ⟨level, .of_at? hlevel, (hfiltered.promoted _ _ hname).trans rfl,
    (hfiltered.inline _ hcity).trans rfl, (hfiltered.inline _ hid).trans rfl,
    hfiltered.required_true.mpr ⟨_, _, hname⟩, (hunfiltered []).1⟩

end FieldSelection
