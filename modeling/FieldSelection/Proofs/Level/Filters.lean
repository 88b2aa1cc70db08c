import Mathlib.Data.String.Basic
import FieldSelection.Proofs.Level.Fields
import FieldSelection.Proofs.Level.Path

/-!
The filters of a level.

A level filters on the fields that its tokens filter on, and on the attributes that the
query filters on; the query wins.

* `Entries.Sorted`, `Entries.lookup?_putSorted`: entries in the order of their keys as a
  finite map.
* `Place.inline?`: the filter that tokens write with a field; `lookup?_filters_asked`
  finds it in a request.
* `Descriptor.Admits`: the names that filters of the query may be on.
* `lookup?_filters_level`, `required_eq_true_iff`: the filters of a level, and whether they
  have to match.
* `Descriptor.unfiltered`, `unfiltered_compiled`: nothing else depends on the query.
-/

namespace FieldSelection

open FieldSelection.Selection

/-! ### Sorted entries -/

namespace Entries

variable {α : Type} {key other : String} {value : α} {entries : List (String × α)}

/-- The keys of the entries increase, so that no key is there twice. -/
def Sorted (entries : List (String × α)) : Prop :=
  (keys entries).Pairwise (· < ·)

/-- After a value was put under a key, it is found there, and all other keys lead to what
they led to before. -/
lemma lookup?_putSorted :
    lookup? other (putSorted key value entries)
      = if key = other then some value else lookup? other entries := by
  induction entries with
  | nil => rfl
  | cons entry entries ih =>
      obtain ⟨k, old⟩ := entry
      rw [putSorted]
      split
      · rw [lookup?]
      · split
        · next hkey =>
          subst hkey
          rw [lookup?, lookup?]
          split <;> rfl
        · next hkey =>
          rw [lookup?, lookup?, ih]
          by_cases hk : k = other
          · subst hk
            simp [hkey]
          · simp [hk]

lemma mem_keys_putSorted :
    other ∈ keys (putSorted key value entries) ↔ other = key ∨ other ∈ keys entries := by
  induction entries with
  | nil => simp [putSorted, keys]
  | cons entry entries ih =>
      obtain ⟨k, old⟩ := entry
      rw [putSorted]
      split
      · simp [keys]
      · split
        · next hkey => simp [keys, hkey]
        · have hcons : ∀ (tail : List (String × α)) (a : α),
              other ∈ keys ((k, a) :: tail) ↔ other = k ∨ other ∈ keys tail := by
            simp [keys]
          rw [hcons, hcons, ih, or_left_comm]

lemma putSorted_ne_nil : putSorted key value entries ≠ [] := by
  intro hnil
  have hmem : key ∈ keys (putSorted key value entries) := mem_keys_putSorted.mpr (Or.inl rfl)
  rw [hnil] at hmem
  cases hmem

lemma Sorted.nodup_keys (h : Sorted entries) : (keys entries).Nodup :=
  List.Pairwise.imp ne_of_lt h

/-- Putting a value under a key keeps entries sorted. -/
lemma Sorted.putSorted (h : Sorted entries) : Sorted (putSorted key value entries) := by
  induction entries with
  | nil => exact List.pairwise_singleton _ _
  | cons entry entries ih =>
      obtain ⟨k, old⟩ := entry
      obtain ⟨hfirst, hrest⟩ := List.pairwise_cons.mp h
      rw [Entries.putSorted]
      split
      · next hlt =>
        refine List.pairwise_cons.mpr ⟨fun later hlater => ?_, h⟩
        rcases List.mem_cons.mp hlater with rfl | hlater
        · exact hlt
        · exact lt_trans hlt (hfirst later hlater)
      · next hlt =>
        split
        · next hkey =>
          subst hkey
          exact h
        · next hkey =>
          refine List.pairwise_cons.mpr ⟨fun later hlater => ?_, ih hrest⟩
          rcases mem_keys_putSorted.mp hlater with rfl | hlater
          · exact lt_of_le_of_ne (not_lt.mp hlt) (Ne.symm hkey)
          · exact hfirst later hlater

/-- Entries in which nothing is found are none. -/
lemma eq_nil_iff_lookup? : entries = [] ↔ ∀ key, lookup? key entries = none := by
  constructor
  · rintro rfl key
    rfl
  · intro h
    cases entries with
    | nil => rfl
    | cons entry entries =>
        have hnone := h entry.1
        rw [lookup?, if_pos rfl] at hnone
        cases hnone

end Entries

/-! ### Filters over filters -/

lemma overrideFilters_append (filters first second : List (String × FilterValue)) :
    overrideFilters filters (first ++ second)
      = overrideFilters (overrideFilters filters first) second :=
  List.foldl_append

lemma overrideFilters_sorted {filters : List (String × FilterValue)}
    (h : Entries.Sorted filters) (promoted : List (String × FilterValue)) :
    Entries.Sorted (overrideFilters filters promoted) := by
  induction promoted generalizing filters with
  | nil => exact h
  | cons entry promoted ih => exact ih h.putSorted

lemma overrideFilters_eq_nil_iff {filters promoted : List (String × FilterValue)} :
    overrideFilters filters promoted = [] ↔ filters = [] ∧ promoted = [] := by
  cases promoted using List.reverseRecOn with
  | nil => simp [overrideFilters]
  | append_singleton promoted entry =>
      simp [overrideFilters, Entries.putSorted_ne_nil]

/-- Filters have to match if some of them are promoted. -/
lemma filterMark_eq_true_iff {filters promoted : List (String × FilterValue)} :
    filterMark filters promoted = some true ↔ promoted ≠ [] := by
  cases promoted <;> cases filters <;> simp [filterMark]

lemma filterMark_eq_false_iff {filters promoted : List (String × FilterValue)} :
    filterMark filters promoted = some false ↔ promoted = [] ∧ filters ≠ [] := by
  cases promoted <;> cases filters <;> simp [filterMark]

/-- Nothing is said about filters only where there are none. -/
lemma filterMark_eq_none_iff {filters promoted : List (String × FilterValue)} :
    filterMark filters promoted = none ↔ overrideFilters filters promoted = [] := by
  rw [overrideFilters_eq_nil_iff]
  cases promoted <;> cases filters <;> simp [filterMark]

/-! ### Filters that are written with fields -/

/-- The value that a token filters on a name with. -/
def filterOn? (name : String) : Token → Option String
  | .filter other value => if other = name then some value else none
  | _ => none

namespace Place

/-- The filter that a token writes with a field, in keys mode. -/
def inlineOf? (place : Place) (keysMode : Bool) : Token → Option (String × FilterValue)
  | .filter name value =>
    if keysMode && place.hasField name then some (name, .one (.string value)) else none
  | _ => none

/-- The filter that tokens write with a field, in keys mode: the last one counts. -/
def inline? (place : Place) (keysMode : Bool) (tokens : List Token) (name : String) :
    Option FilterValue :=
  if keysMode && place.hasField name then
    (tokens.filterMap (filterOn? name)).getLast?.map fun value => .one (.string value)
  else none

lemma hasField_of_inline? {place : Place} {keysMode : Bool} {tokens : List Token} {name : String}
    (h : place.inline? keysMode tokens name ≠ none) : place.hasField name = true := by
  by_contra hfield
  simp [inline?, hfield] at h

variable (place : Place) (keysMode : Bool)

lemma take_filters (request : Request) (token : Token) :
    (request.take place keysMode token).filters
      = (place.inlineOf? keysMode token).elim request.filters
          fun entry => Entries.putSorted entry.1 entry.2 request.filters := by
  cases token with
  | filter name value =>
      cases h : place.hasField name <;> cases keysMode <;>
        simp [Request.take, Request.add, Request.withField, Request.withFilter, inlineOf?, h]
  | field name =>
      simp only [Request.take, Request.add]
      split_ifs <;> rfl
  | except name =>
      simp only [Request.take, Request.add]
      split_ifs <;> rfl
  | _ => rfl

lemma inline?_append_singleton (tokens : List Token) (token : Token) (name : String) :
    place.inline? keysMode (tokens ++ [token]) name
      = (((place.inlineOf? keysMode token).filter (·.1 = name)).map (·.2)).or
          (place.inline? keysMode tokens name) := by
  rw [inline?, inline?, List.filterMap_append, List.getLast?_append, Option.map_or]
  cases token with
  | filter other value =>
      by_cases hother : other = name
      · subst hother
        have hvalue : filterOn? other (.filter other value) = some value := if_pos rfl
        rw [List.filterMap_cons_some hvalue, List.filterMap_nil, List.getLast?_singleton, inlineOf?]
        split
        · rw [Option.filter_some, if_pos (by simp)]
          rfl
        · rfl
      · have hvalue : filterOn? name (.filter other value) = none := if_neg hother
        rw [List.filterMap_cons_none hvalue, inlineOf?]
        split_ifs <;> simp [Option.filter_some, hother]
  | _ => simp [inlineOf?, filterOn?]

/-- The filters of a request are those that its tokens write with fields. -/
lemma lookup?_filters_asked (tokens : List Token) (name : String) :
    Entries.lookup? name (place.asked keysMode tokens).filters
      = place.inline? keysMode tokens name := by
  induction tokens using List.reverseRecOn with
  | nil => simp [asked, inline?]
  | append_singleton tokens token ih =>
      rw [asked_append_singleton, take_filters, inline?_append_singleton]
      cases place.inlineOf? keysMode token with
      | none => simpa using ih
      | some entry =>
          rw [Option.elim_some, Entries.lookup?_putSorted, ih]
          by_cases hname : entry.1 = name <;> simp [Option.filter, hname]

lemma sorted_filters_asked (tokens : List Token) :
    Entries.Sorted (place.asked keysMode tokens).filters := by
  induction tokens using List.reverseRecOn with
  | nil => exact List.Pairwise.nil
  | append_singleton tokens token ih =>
      rw [asked_append_singleton, take_filters]
      cases place.inlineOf? keysMode token with
      | none => exact ih
      | some entry => exact ih.putSorted

end Place

/-! ### Filters of the query -/

/-- Whether filters of the query may be on a name: on the attributes of the level, or on
any name right below it that is not excluded where every attribute is selected. -/
def Descriptor.Admits (level : Descriptor) (name : String) : Prop :=
  name ∈ level.attributes ∨
    (level.allAttributes = true ∧ name ≠ "" ∧ '.' ∉ name.toList ∧ name ∉ level.excluded)

instance (level : Descriptor) (name : String) : Decidable (level.Admits name) :=
  inferInstanceAs (Decidable (_ ∨ _))

lemma Query.mem_keys_of_filter? {query : Query} {path : String} {value : Json}
    (h : query.filter? path = some value) : path ∈ Entries.keys query.filters :=
  Entries.mem_keys.mpr ⟨value, Entries.mem_of_lookup? (Option.filter_eq_some_iff.mp h).1⟩

namespace Place

variable {options : CompileOptions} {query : Query} {place : Place} {request : Request}
  {includes : List Descriptor} {name : String}

/-- The filters of the query that are promoted, over others. -/
lemma lookup?_override_promoted (filters : List (String × FilterValue)) (names : List String) :
    Entries.lookup? name (overrideFilters filters (place.promoted query names))
      = if name ∈ names then
          ((query.filter? (joinPath place.path name)).map .ofQuery).or
            (Entries.lookup? name filters)
        else Entries.lookup? name filters := by
  induction names using List.reverseRecOn with
  | nil => rfl
  | append_singleton names last ih =>
      have hlast : place.promoted query (names ++ [last])
          = place.promoted query names ++ place.promoted query [last] :=
        List.filterMap_append
      rw [hlast, overrideFilters_append]
      cases hvalue : query.filter? (joinPath place.path last) with
      | none =>
          have hnone : place.promoted query [last] = [] := by simp [promoted, hvalue]
          rw [hnone, overrideFilters, List.foldl_nil, ih]
          by_cases hname : name = last
          · subst hname
            simp [hvalue]
          · simp [hname]
      | some value =>
          have hsome : place.promoted query [last] = [(last, .ofQuery value)] := by
            simp [promoted, hvalue]
          rw [hsome, overrideFilters, List.foldl_cons, List.foldl_nil, Entries.lookup?_putSorted,
            ih]
          by_cases hname : name = last
          · subst hname
            simp [hvalue]
          · simp [hname, Ne.symm hname]

/-- The names that a level admits are the ones that filters of the query are looked up
for, as far as there are such filters. -/
lemma mem_filterable_iff {value : Json}
    (hvalue : query.filter? (joinPath place.path name) = some value) :
    name ∈ place.filterable query (place.attributes? options.includeKeys request)
        (place.level options query request includes).excluded
      ↔ (place.level options query request includes).Admits name := by
  rw [Descriptor.Admits, level]
  cases hattributes : place.attributes? options.includeKeys request with
  | some attributes => simp [filterable]
  | none =>
      simp only [filterable, List.mem_filter, List.mem_filterMap, childKey?_eq_some_iff,
        Option.getD_none, Option.isNone_none, List.not_mem_nil, not_false_eq_true, decide_true,
        List.filter_true, decide_eq_true_eq, false_or, true_and]
      constructor
      · rintro ⟨⟨key, -, -, hname⟩, hexcluded⟩
        exact ⟨hname.1, hname.2, hexcluded⟩
      · rintro ⟨hne, hdot, hexcluded⟩
        exact ⟨⟨_, Query.mem_keys_of_filter? hvalue, rfl, hne, hdot⟩, hexcluded⟩

/-- **The filters of a level** are those of its request, and over them the filters of the
query on the names that the level admits. -/
lemma lookup?_filters_level :
    Entries.lookup? name (place.level options query request includes).filters
      = if (place.level options query request includes).Admits name then
          ((query.filter? (joinPath place.path name)).map .ofQuery).or
            (Entries.lookup? name request.filters)
        else Entries.lookup? name request.filters := by
  have hfilters : (place.level options query request includes).filters
      = overrideFilters request.filters (place.promoted query
          (place.filterable query (place.attributes? options.includeKeys request)
            (place.level options query request includes).excluded)) := rfl
  rw [hfilters, lookup?_override_promoted]
  cases hvalue : query.filter? (joinPath place.path name) with
  | none => simp
  | some value => simp only [mem_filterable_iff hvalue]

lemma lookup?_filters_compiled {tokens : List Token} {room : Nat} :
    Entries.lookup? name (place.compiled options query room tokens).filters
      = if (place.compiled options query room tokens).Admits name then
          ((query.filter? (joinPath place.path name)).map .ofQuery).or
            (place.inline? options.includeKeys tokens name)
        else place.inline? options.includeKeys tokens name := by
  rw [compiled_eq_level, lookup?_filters_level, lookup?_filters_asked]

/-- A level has its filters in the order of their names. -/
lemma sorted_filters_level (hs : Entries.Sorted request.filters) :
    Entries.Sorted (place.level options query request includes).filters :=
  overrideFilters_sorted hs _

lemma sorted_filters_compiled {tokens : List Token} {room : Nat} :
    Entries.Sorted (place.compiled options query room tokens).filters := by
  rw [compiled_eq_level]
  exact sorted_filters_level (sorted_filters_asked place options.includeKeys tokens)

/-- Nothing is promoted to a level if the query has no filter on a name that the level
admits. -/
lemma promoted_eq_nil_iff :
    place.promoted query (place.filterable query (place.attributes? options.includeKeys request)
        (place.level options query request includes).excluded) = []
      ↔ ∀ name, (place.level options query request includes).Admits name →
          query.filter? (joinPath place.path name) = none := by
  rw [promoted, List.filterMap_eq_nil_iff]
  constructor
  · intro h name hadmits
    cases hvalue : query.filter? (joinPath place.path name) with
    | none => rfl
    | some value =>
        have hnone := h name ((mem_filterable_iff hvalue).mpr hadmits)
        simp [hvalue] at hnone
  · intro h name hname
    cases hvalue : query.filter? (joinPath place.path name) with
    | none => rfl
    | some value =>
        have hnone := h name ((mem_filterable_iff hvalue).mp hname)
        rw [hvalue] at hnone
        cases hnone

/-- The filters of a level have to match if the query filters on a name that the level
admits. -/
lemma required_eq_true_iff :
    (place.level options query request includes).required = some true
      ↔ ∃ name value, (place.level options query request includes).Admits name ∧
          query.filter? (joinPath place.path name) = some value := by
  have hmark : (place.level options query request includes).required = some true
      ↔ place.promoted query (place.filterable query
          (place.attributes? options.includeKeys request)
          (place.level options query request includes).excluded) ≠ [] :=
    filterMark_eq_true_iff
  rw [hmark, Ne, promoted_eq_nil_iff]
  simp only [not_forall, ← ne_eq, Option.ne_none_iff_exists', exists_prop, exists_and_left]

/-- They need not match if the query filters on none of them, but fields are written with
filters. -/
lemma required_eq_false_iff :
    (place.level options query request includes).required = some false
      ↔ (∀ name, (place.level options query request includes).Admits name →
          query.filter? (joinPath place.path name) = none) ∧ request.filters ≠ [] :=
  filterMark_eq_false_iff.trans (and_congr_left' promoted_eq_nil_iff)

lemma required_eq_none_iff :
    (place.level options query request includes).required = none
      ↔ (place.level options query request includes).filters = [] :=
  filterMark_eq_none_iff

end Place

/-! ### All but the filters -/

mutual

/-- A descriptor without filters, at all levels. -/
def Descriptor.unfiltered : Descriptor → Descriptor
  | { attributes, allAttributes, excluded, filters := _, required := _, includes, includeAll,
      association, limit, offset, order, col, distinct } =>
    { attributes, allAttributes, excluded, includes := unfilteredAll includes, includeAll,
      association, limit, offset, order, col, distinct }

/-- Some descriptors without filters, at all levels. -/
def Descriptor.unfilteredAll : List Descriptor → List Descriptor
  | [] => []
  | descriptor :: rest => descriptor.unfiltered :: unfilteredAll rest

end

lemma Descriptor.unfilteredAll_eq_map (descriptors : List Descriptor) :
    unfilteredAll descriptors = descriptors.map unfiltered := by
  induction descriptors with
  | nil => rfl
  | cons descriptor rest ih => rw [unfilteredAll, List.map_cons, ih]

lemma Descriptor.unfiltered_eq (descriptor : Descriptor) :
    descriptor.unfiltered =
      { descriptor with
        filters := [], required := none, includes := descriptor.includes.map unfiltered } := by
  cases descriptor
  rw [unfiltered, unfilteredAll_eq_map]

lemma Descriptor.unfiltered_under (descriptor : Descriptor) (name : String) :
    (descriptor.under name).unfiltered = descriptor.unfiltered.under name := by
  rw [unfiltered_eq, unfiltered_eq]
  rfl

/-- **Only filters depend on the query**: apart from them, a level and all levels below it
are the same for all queries. -/
lemma unfiltered_compiled (options : CompileOptions) (query query' : Query) (room : Nat)
    (place : Place) (tokens : List Token) :
    (place.compiled options query room tokens).unfiltered
      = (place.compiled options query' room tokens).unfiltered := by
  induction room generalizing place tokens with
  | zero =>
      rw [Place.compiled_zero, Place.compiled_zero, Descriptor.unfiltered_eq,
        Descriptor.unfiltered_eq]
      rfl
  | succ room ih =>
      have hbelow : ∀ name list, (place.below options query room name list).map
            Descriptor.unfiltered
          = (place.below options query' room name list).map Descriptor.unfiltered := by
        intro name list
        rw [Place.below, Place.below]
        cases place.enter? name with
        | none => rfl
        | some next =>
            simp only [Option.map_some, Descriptor.unfiltered_under, ih next list]
      have hincludes : (place.compiled options query (room + 1) tokens).includes.map
            Descriptor.unfiltered
          = (place.compiled options query' (room + 1) tokens).includes.map
              Descriptor.unfiltered := by
        simp only [Place.includes_compiled, List.map_append, List.map_filterMap, hbelow]
      rw [Descriptor.unfiltered_eq, Descriptor.unfiltered_eq, hincludes,
        Place.compiled_eq_level, Place.compiled_eq_level _ query']
      rfl

end FieldSelection
