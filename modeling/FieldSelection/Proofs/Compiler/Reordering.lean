import FieldSelection.Proofs.Compiler.Repetition
import FieldSelection.Proofs.Level.Answers

/-!
The order of a selection.

The parts of a selection may be written in any order: every level selects the same then, and
only the order of names may be another one. Where the fields are found by leaving some out,
they stand in the order of the shape or the model anyway.

* `tokensBelow_perm`: tokens in another order have the tokens of the levels below them in
  another order.
* `Descriptor.Reordered`: levels that are the same but for the order of names.
* `reordered_compiled`: tokens in another order make such levels; with
  `attributes?_eq_of_perm`, the attributes are in the same order where some are left out.
* `rel_at?_of_perm`: so do all levels below, by induction on the path.
* `compile_perm`: so do the parts of a selection in another order.
-/

namespace FieldSelection

open FieldSelection.Selection FieldSelection.Text

/-! ### Tokens in another order -/

section Tokens

variable {tokens tokens' : List Token}

lemma distinctNames_perm {names names' : List String} (h : names.Perm names') :
    (distinctNames names).Perm (distinctNames names') :=
  (List.perm_ext_iff_of_nodup (nodup_distinctNames names) (nodup_distinctNames names')).mpr
    fun name => by rw [mem_distinctNames, mem_distinctNames, h.mem_iff]

lemma relationNames_perm (h : tokens.Perm tokens') :
    (relationNames tokens).Perm (relationNames tokens') :=
  distinctNames_perm (h.filterMap relationName?)

/-- The bodies of a relation are in another order as well. -/
lemma bodyTokens_perm (h : tokens.Perm tokens') (name : String) :
    (bodyTokens name tokens).Perm (bodyTokens name tokens') :=
  (h.filterMap (bodyOf? name)).flatMap_right _

lemma tokensBelow_perm (h : tokens.Perm tokens') (name : String) :
    (tokensBelow name tokens).Perm (tokensBelow name tokens') := by
  rw [tokensBelow, tokensBelow]
  simp only [(relationNames_perm h).mem_iff]
  split
  · exact bodyTokens_perm h name
  · exact .refl _

end Tokens

/-! ### What is asked for in another order -/

namespace Place

/-- Whether the fields of a level are found by leaving some out: its tokens ask for all of
them, or exclude a field or a relation of the place. -/
def Complements (place : Place) (tokens : List Token) : Prop :=
  .all ∈ tokens ∨ ∃ name, .except name ∈ tokens ∧
    (place.hasField name = true ∨ (place.enter? name).isSome)

variable {place : Place} {keysMode : Bool} {tokens tokens' : List Token}

/-- A request leaves out fields if its tokens do. -/
lemma isComplement_asked_iff :
    (place.asked keysMode tokens).isComplement = true ↔ place.Complements tokens := by
  have hfields : (place.asked keysMode tokens).excluded ≠ []
      ↔ ∃ name, .except name ∈ tokens ∧ place.hasField name = true := by
    simp [List.eq_nil_iff_forall_not_mem, mem_excluded_asked]
  have hrelations : (place.asked keysMode tokens).excludedRelations ≠ []
      ↔ ∃ name, .except name ∈ tokens ∧ place.hasField name = false ∧
          (place.enter? name).isSome := by
    rw [asked_excludedRelations, ← unwantedRelations]
    simp [List.eq_nil_iff_forall_not_mem, mem_unwantedRelations, Option.isSome_iff_ne_none]
  simp only [Request.isComplement, Bool.or_eq_true, asked_all, decide_eq_true_eq,
    Bool.not_eq_true', List.isEmpty_eq_false_iff, hfields, hrelations, Complements, or_assoc]
  refine or_congr_right ?_
  rw [← exists_or]
  refine exists_congr fun name => ?_
  cases place.hasField name <;> simp

lemma complements_perm (h : tokens.Perm tokens') :
    place.Complements tokens ↔ place.Complements tokens' := by
  simp only [Complements, h.mem_iff]

lemma unwantedRelations_perm (h : tokens.Perm tokens') :
    (place.unwantedRelations tokens).Perm (place.unwantedRelations tokens') :=
  h.filterMap _

/-- What a token `all` adds does not depend on the order at all. -/
lemma unnamed_eq_of_perm (h : tokens.Perm tokens') :
    place.unnamed tokens = place.unnamed tokens' := by
  simp only [unnamed, h.mem_iff, (relationNames_perm h).mem_iff,
    (unwantedRelations_perm h).mem_iff]

lemma mem_excluded_of_perm (h : tokens.Perm tokens') {name : String} :
    name ∈ (place.asked keysMode tokens).excluded
      ↔ name ∈ (place.asked keysMode tokens').excluded := by
  rw [mem_excluded_asked, mem_excluded_asked, h.mem_iff]

/-- Where some fields are left out, the others are listed in one order only. -/
lemma attributes?_eq_of_perm (h : tokens.Perm tokens') (hc : place.Complements tokens) :
    place.attributes? keysMode (place.asked keysMode tokens)
      = place.attributes? keysMode (place.asked keysMode tokens') := by
  rw [attributes?, if_pos (isComplement_asked_iff.mpr hc), attributes?,
    if_pos (isComplement_asked_iff.mpr ((complements_perm h).mp hc))]
  simp only [mem_excluded_of_perm h]

lemma isNone_attributes?_of_perm (h : tokens.Perm tokens') :
    (place.attributes? keysMode (place.asked keysMode tokens)).isNone
      = (place.attributes? keysMode (place.asked keysMode tokens')).isNone := by
  by_cases hc : place.Complements tokens
  · rw [attributes?_eq_of_perm h hc]
  · rw [attributes?, if_neg (mt isComplement_asked_iff.mp hc), attributes?,
      if_neg (mt isComplement_asked_iff.mp (mt (complements_perm h).mpr hc))]
    rfl

lemma attributes?_perm (h : tokens.Perm tokens') :
    ((place.attributes? keysMode (place.asked keysMode tokens)).getD []).Perm
      ((place.attributes? keysMode (place.asked keysMode tokens')).getD []) := by
  by_cases hc : place.Complements tokens
  · rw [attributes?_eq_of_perm h hc]
  · rw [attributes?, if_neg (mt isComplement_asked_iff.mp hc), attributes?,
      if_neg (mt isComplement_asked_iff.mp (mt (complements_perm h).mpr hc)), asked_attributes,
      asked_attributes]
    exact distinctNames_perm (h.filterMap _)

/-- The fields that are filtered on are the same, though not the values. -/
lemma isSome_inline?_of_perm (h : tokens.Perm tokens') (name : String) :
    (place.inline? keysMode tokens name).isSome = (place.inline? keysMode tokens' name).isSome := by
  have hempty := (h.filterMap (filterOn? name)).isEmpty_eq
  rw [inline?, inline?]
  split
  · rw [Option.isSome_map, Option.isSome_map, Bool.eq_iff_iff, List.getLast?_isSome,
      List.getLast?_isSome, Ne, ← List.isEmpty_iff, hempty, List.isEmpty_iff]
  · rfl

lemma filters_asked_eq_nil_of_perm (h : tokens.Perm tokens') :
    (place.asked keysMode tokens).filters = [] ↔ (place.asked keysMode tokens').filters = [] := by
  rw [Entries.eq_nil_iff_lookup?, Entries.eq_nil_iff_lookup?]
  refine forall_congr' fun name => ?_
  rw [lookup?_filters_asked, lookup?_filters_asked, ← Option.not_isSome_iff_eq_none,
    isSome_inline?_of_perm h, Option.not_isSome_iff_eq_none]

end Place

/-! ### Levels in another order -/

/-- **Levels that are the same but for the order of names.** Filters are sorted by name, so
they are on the same names in the same order, though not with the same values. -/
structure Descriptor.Reordered (level level' : Descriptor) : Prop where
  attributes : level.attributes.Perm level'.attributes
  allAttributes : level.allAttributes = level'.allAttributes
  excluded : level.excluded.Perm level'.excluded
  filters : Entries.keys level.filters = Entries.keys level'.filters
  required : level.required = level'.required
  includes : (level.includes.map (·.association)).Perm (level'.includes.map (·.association))
  includeAll : level.includeAll = level'.includeAll

namespace Place

variable {options : CompileOptions} {query : Query} {place : Place} {tokens tokens' : List Token}
  {includes includes' : List Descriptor}

lemma excluded_level_perm (h : tokens.Perm tokens') :
    (place.level options query (place.asked options.includeKeys tokens) includes).excluded.Perm
      (place.level options query (place.asked options.includeKeys tokens') includes').excluded := by
  have hexcluded : (place.asked options.includeKeys tokens).excluded.Perm
      (place.asked options.includeKeys tokens').excluded := by
    rw [asked_excluded, asked_excluded]
    exact distinctNames_perm (h.filterMap _)
  have hkept : ∀ name : String,
      name ∈ (place.attributes? options.includeKeys
          (place.asked options.includeKeys tokens)).getD []
        ↔ name ∈ (place.attributes? options.includeKeys
          (place.asked options.includeKeys tokens')).getD [] :=
    fun name => (attributes?_perm h).mem_iff
  simp only [level, hkept]
  exact hexcluded.filter _

/-- The same names can be filtered on. -/
lemma admits_level_of_perm (h : tokens.Perm tokens') (includes includes' : List Descriptor)
    (name : String) :
    (place.level options query (place.asked options.includeKeys tokens) includes).Admits name
      ↔ (place.level options query (place.asked options.includeKeys tokens') includes').Admits
          name := by
  have hexcluded := @excluded_level_perm options query place tokens tokens' includes includes' h
  rw [Descriptor.Admits, Descriptor.Admits, hexcluded.mem_iff]
  simp only [level, (attributes?_perm h).mem_iff, isNone_attributes?_of_perm h]

lemma keys_filters_level_of_perm (h : tokens.Perm tokens') :
    Entries.keys
        (place.level options query (place.asked options.includeKeys tokens) includes).filters
      = Entries.keys
        (place.level options query (place.asked options.includeKeys tokens')
          includes').filters := by
  refine List.Pairwise.eq_of_mem_iff
    (sorted_filters_level (sorted_filters_asked place options.includeKeys tokens))
    (sorted_filters_level (sorted_filters_asked place options.includeKeys tokens'))
    fun name => ?_
  rw [← Entries.isSome_lookup?_iff, ← Entries.isSome_lookup?_iff]
  simp only [lookup?_filters_level, lookup?_filters_asked,
    admits_level_of_perm h includes includes']
  split
  · rw [Option.isSome_or, Option.isSome_or, isSome_inline?_of_perm h]
  · rw [isSome_inline?_of_perm h]

/-- **Tokens in another order make the same level** but for the order of names, if the same
relations are below it. -/
lemma reordered_level (h : tokens.Perm tokens')
    (hincludes : (includes.map (·.association)).Perm (includes'.map (·.association))) :
    (place.level options query (place.asked options.includeKeys tokens) includes).Reordered
      (place.level options query (place.asked options.includeKeys tokens') includes') where
  attributes := attributes?_perm h
  allAttributes := isNone_attributes?_of_perm h
  excluded := excluded_level_perm h
  filters := keys_filters_level_of_perm h
  required := by
    refine Option.ext fun mark => ?_
    cases mark with
    | false =>
        rw [required_eq_false_iff, required_eq_false_iff, Ne, filters_asked_eq_nil_of_perm h]
        simp only [admits_level_of_perm h includes includes']
    | true =>
        rw [required_eq_true_iff, required_eq_true_iff]
        simp only [admits_level_of_perm h includes includes']
  includes := hincludes
  includeAll := by simp only [level, asked_all, h.mem_iff]

/-- A level and all relations below it are the same but for the order of names. -/
lemma reordered_compiled (options : CompileOptions) (query : Query) (room : Nat) (place : Place)
    (h : tokens.Perm tokens') :
    (place.compiled options query room tokens).Reordered
      (place.compiled options query room tokens') := by
  rw [compiled_eq_level, compiled_eq_level options query place tokens']
  refine reordered_level h ?_
  cases room with
  | zero => exact .refl _
  | succ room =>
      rw [map_association_includes, map_association_includes, unnamed_eq_of_perm h]
      exact (((relationNames_perm h).filter _).append_right _).map _

end Place

/-! ### Levels below -/

lemma Descriptor.reordered_bare {level level' : Descriptor}
    (h : level.bare.Reordered level'.bare) : level.Reordered level' :=
  ⟨h.attributes, h.allAttributes, h.excluded, h.filters, h.required, h.includes, h.includeAll⟩

/-- The attributes of a level are listed in one order only where some fields are left out. -/
lemma attributes_eq_of_perm {options : CompileOptions} {query : Query} {room room' : Nat}
    {place : Place} {tokens tokens' : List Token} (h : tokens.Perm tokens')
    (hc : place.Complements tokens) :
    (place.compiled options query room tokens).attributes
      = (place.compiled options query room' tokens').attributes := by
  rw [Place.compiled_eq_level, Place.compiled_eq_level options query place tokens' room',
    Place.level, Place.level, Place.attributes?_eq_of_perm h hc]

/-- **At the end of every path** there are levels that are the same but for the order of names,
or there is no level for either order. -/
lemma rel_at?_of_perm {options : CompileOptions} {query : Query} {room : Nat} {place : Place}
    {tokens tokens' : List Token} {descriptor descriptor' : Descriptor}
    (hbare : descriptor.bare = place.compiled options query room tokens)
    (hbare' : descriptor'.bare = place.compiled options query room tokens')
    (h : tokens.Perm tokens') (path : List String) :
    Option.Rel (fun level level' => level.Reordered level' ∧
        ∃ next, place.follow? path = some next ∧
          (next.Complements (tokensAt path tokens) → level.attributes = level'.attributes))
      (descriptor.at? path) (descriptor'.at? path) := by
  induction path generalizing room place tokens tokens' descriptor descriptor' with
  | nil =>
      refine .some ⟨Descriptor.reordered_bare ?_, place, rfl, fun hc => ?_⟩
      · rw [hbare, hbare']
        exact Place.reordered_compiled options query room place h
      · have hattributes : descriptor.bare.attributes = descriptor'.bare.attributes := by
          rw [hbare, hbare']
          exact attributes_eq_of_perm h hc
        exact hattributes
  | cons name path ih =>
      rw [Descriptor.at?, Descriptor.at?, ← descriptor.include?_bare, ← descriptor'.include?_bare,
        hbare, hbare']
      cases room with
      | zero => exact .none
      | succ room =>
          rw [Place.include?_compiled_succ, Place.include?_compiled_succ,
            Place.unnamed_eq_of_perm h]
          simp only [(relationNames_perm h).mem_iff]
          split
          · rw [Place.below, Place.below, Place.follow?]
            cases place.enter? name with
            | none => exact .none
            | some next =>
                exact ih (next.bare_compiled ..) (next.bare_compiled ..) (tokensBelow_perm h name)
          · exact .none

/-! ### Whole selections -/

/-- **Order matters only for order**: a selection with its parts in another order has the same
levels, and every level selects the same but for the order of names. Where the tokens of a level
ask for all fields or exclude something, even the order of its attributes is the same. -/
theorem compile_perm (compiler : Compiler) (query : Query) {parts parts' : List (List Char)}
    (hclosed : ∀ part ∈ parts, Closed part) (hperm : parts.Perm parts') (path : List String) :
    Option.Rel (fun level level' => level.Reordered level' ∧
        ∃ place, compiler.root.follow? path = some place ∧
          (place.Complements (tokensAt path (Selection.tokens (join ',' parts))) →
            level.attributes = level'.attributes))
      ((compiler.select query (join ',' parts)).at? path)
      ((compiler.select query (join ',' parts')).at? path) := by
  have htokens : (Selection.tokens (join ',' parts)).Perm (Selection.tokens (join ',' parts')) := by
    rw [(tokens_join hclosed).1,
      (tokens_join fun part hpart => hclosed part (hperm.mem_iff.mpr hpart)).1]
    exact hperm.flatMap_right _
  exact rel_at?_of_perm (compiler.bare_select query _) (compiler.bare_select query _) htokens path

/-- Parts that name books twice, with a filter and an exclusion in different bodies. -/
def townParts : List (List Char) :=
  ["books(title=x,author(born))".toList, "mayor()".toList, "books(copies(),-id)".toList,
    "id".toList]

/-- Read from the back, the books of towns have their authors behind their copies, but the same
attributes in the same order. -/
theorem compile_perm_towns :
    ∃ level level',
      (towns.select {} (join ',' townParts)).at? ["books"] = some level ∧
      (towns.select {} (join ',' townParts.reverse)).at? ["books"] = some level' ∧
      level.Reordered level' ∧ level.attributes = level'.attributes := by
  have hclosed : ∀ part ∈ townParts, Closed part := by decide
  have hrel := compile_perm towns {} hclosed (List.reverse_perm townParts).symm ["books"]
  have hsome : ((towns.select {} (join ',' townParts)).at? ["books"]).isSome := by decide +kernel
  obtain ⟨level, hlevel⟩ := Option.isSome_iff_exists.mp hsome
  have htokens : tokensAt ["books"] (Selection.tokens (join ',' townParts))
      = [.filter "title" "x", .relation "author" "born", .relation "copies" "all",
        .except "id"] := by decide +kernel
  have hbooks : towns.root.follow? ["books"] = some ⟨towns.shape.bind (·.behind? "books"), none,
      "books"⟩ := rfl
  rw [hlevel, htokens] at hrel
  generalize hlevel' : (towns.select {} (join ',' townParts.reverse)).at? ["books"] = found at hrel
  cases hrel with
  | some h =>
      obtain ⟨hreordered, place, hplace, hattributes⟩ := h
      obtain rfl := Option.some.inj (hbooks.symm.trans hplace)
      exact ⟨level, _, hlevel, rfl, hreordered,
        hattributes (Or.inr ⟨"id", by simp, Or.inl (by decide)⟩)⟩

end FieldSelection
