import FieldSelection.Proofs.Compiler.Repetition
import FieldSelection.Proofs.Level.Reach

/-!
Keys mode.

Keys mode puts excluded keys back where they are listed among the fields, and does nothing else
to what is selected. Levels that exclude no field are the same with and without it, whatever keys
there are.

* `Descriptor.BackFills`: a level without keys mode and the same level with it.
* `backFills_compiled`: what keys mode does to one level.
* `Descriptor.Beside`: levels at the same position of two descriptors.
* `backFills_of_beside`: keys mode does the same to all levels below, by induction on the
  position.
* `compile_keysMode`: so it does to a whole descriptor.
-/

namespace FieldSelection

open FieldSelection.Selection

/-- **A level without keys mode and with it**: the excluded keys of the place are attributes with
it, among the others in order, and are excluded no more. All else is the same. -/
structure Descriptor.BackFills (place : Place) (off on : Descriptor) : Prop where
  includes : off.includes.map (·.association) = on.includes.map (·.association)
  includeAll : off.includeAll = on.includeAll
  allAttributes : off.allAttributes = on.allAttributes
  attributes : off.attributes.Sublist on.attributes
  added : ∀ name, name ∈ on.attributes ∧ name ∉ off.attributes
    ↔ name ∈ off.excluded ∧ place.isKey name = true
  excluded : on.excluded = off.excluded.filter fun name => !place.isKey name
  unchanged : off.excluded = [] → on.attributes = off.attributes

namespace Place

variable {place : Place} {tokens : List Token} {options : CompileOptions} {query : Query}
  {includes : List Descriptor}

/-! ### One level -/

lemma isComplement_asked_keys (keysMode : Bool) :
    (place.asked keysMode tokens).isComplement = (place.asked false tokens).isComplement := by
  simp only [Request.isComplement, asked_all, asked_excluded, asked_excludedRelations]

/-- The attributes without keys mode. -/
lemma attributes?_asked_off :
    place.attributes? false (place.asked false tokens)
      = if (place.asked false tokens).isComplement then
          place.fields?.map fun fields =>
            fields.filter fun name => name ∉ (place.asked false tokens).excluded
        else some (place.asked false tokens).attributes := by
  simp only [attributes?, Bool.false_and, Bool.or_false]

/-- The attributes with keys mode, told by the request without it. -/
lemma attributes?_asked_on :
    place.attributes? true (place.asked true tokens)
      = if (place.asked false tokens).isComplement then
          place.fields?.map fun fields => fields.filter fun name =>
            name ∉ (place.asked false tokens).excluded || place.isKey name
        else some (place.asked false tokens).attributes := by
  simp only [attributes?, isComplement_asked_keys true, Bool.true_and, asked_excluded,
    asked_attributes]

/-- Without keys mode, what is excluded stays excluded. -/
lemma excluded_level_off (hkeys : options.includeKeys = false) :
    (place.level options query (place.asked false tokens) includes).excluded
      = (place.asked false tokens).excluded := by
  rw [level, hkeys]
  refine List.filter_eq_self.mpr fun name hname => ?_
  simp [mem_attributes?_of_mem_excluded hname]

/-- With keys mode, keys are excluded no more. -/
lemma excluded_level_on (hkeys : options.includeKeys = true) :
    (place.level options query (place.asked true tokens) includes).excluded
      = (place.asked false tokens).excluded.filter fun name => !place.isKey name := by
  have hexcluded : (place.asked true tokens).excluded = (place.asked false tokens).excluded := by
    rw [asked_excluded, asked_excluded]
  rw [level, hkeys, ← hexcluded]
  refine List.filter_congr fun name hname => ?_
  simp [mem_attributes?_of_mem_excluded hname]

lemma attributes?_sublist :
    ((place.attributes? false (place.asked false tokens)).getD []).Sublist
      ((place.attributes? true (place.asked true tokens)).getD []) := by
  rw [attributes?_asked_off, attributes?_asked_on]
  split
  · cases place.fields? with
    | none => exact .refl _
    | some fields =>
        refine List.monotone_filter_right fields fun name hname => ?_
        rw [hname, Bool.true_or]
  · exact .refl _

/-- What keys mode adds to the attributes is what it takes from the exclusions. -/
lemma added_attributes?_iff {name : String} :
    name ∈ (place.attributes? true (place.asked true tokens)).getD [] ∧
        name ∉ (place.attributes? false (place.asked false tokens)).getD []
      ↔ name ∈ (place.asked false tokens).excluded ∧ place.isKey name = true := by
  have hexcluded : (place.asked true tokens).excluded = (place.asked false tokens).excluded := by
    rw [asked_excluded, asked_excluded]
  constructor
  · rw [attributes?_asked_off, attributes?_asked_on]
    rintro ⟨hon, hoff⟩
    split at hon
    · next hcomplement =>
      rw [if_pos hcomplement] at hoff
      cases hfields : place.fields? with
      | none => simp [hfields] at hon
      | some fields =>
          simp only [hfields, Option.map_some, Option.getD_some, List.mem_filter,
            Bool.or_eq_true, decide_eq_true_eq, not_and, not_not] at hon hoff
          exact ⟨hoff hon.1, hon.2.resolve_left (not_not.mpr (hoff hon.1))⟩
    · next hcomplement =>
      rw [if_neg hcomplement] at hoff
      exact absurd hon hoff
  · rintro ⟨hname, hkey⟩
    refine ⟨(mem_attributes?_of_mem_excluded (hexcluded ▸ hname)).mpr ⟨rfl, hkey⟩, fun hoff => ?_⟩
    exact Bool.false_ne_true ((mem_attributes?_of_mem_excluded hname).mp hoff).1

/-- Where nothing is excluded there is nothing to put back. -/
lemma attributes?_eq_of_excluded_eq_nil (h : (place.asked false tokens).excluded = []) :
    place.attributes? true (place.asked true tokens)
      = place.attributes? false (place.asked false tokens) := by
  simp [attributes?_asked_off, attributes?_asked_on, h]

lemma isNone_attributes?_keys :
    (place.attributes? false (place.asked false tokens)).isNone
      = (place.attributes? true (place.asked true tokens)).isNone := by
  rw [attributes?_asked_off, attributes?_asked_on]
  split
  · rw [Option.isNone_map, Option.isNone_map]
  · rfl

/-- Which relations are below a level does not depend on options other than its room. -/
lemma map_association_includes_eq (options options' : CompileOptions) (query : Query) (room : Nat)
    (place : Place) (tokens : List Token) :
    (place.compiled options query room tokens).includes.map (·.association)
      = (place.compiled options' query room tokens).includes.map (·.association) := by
  cases room with
  | zero => rfl
  | succ room => rw [map_association_includes, map_association_includes]

variable {options' : CompileOptions}

/-- **What keys mode does to a level**: it puts back excluded keys. -/
lemma backFills_compiled (hoff : options.includeKeys = false) (hon : options'.includeKeys = true)
    (room : Nat) :
    (place.compiled options query room tokens).BackFills place
      (place.compiled options' query room tokens) := by
  rw [compiled_eq_level, compiled_eq_level options', hoff, hon]
  exact {
    includes := map_association_includes_eq options options' query room place tokens
    includeAll := by simp only [level, asked_all]
    allAttributes := by
      rw [level, level, hoff, hon]
      exact isNone_attributes?_keys
    attributes := by
      rw [level, level, hoff, hon]
      exact attributes?_sublist
    added := by
      intro name
      rw [excluded_level_off hoff, level, level, hoff, hon]
      exact added_attributes?_iff
    excluded := by rw [excluded_level_on hon, excluded_level_off hoff]
    unchanged := by
      rw [excluded_level_off hoff, level, level, hoff, hon]
      intro h
      rw [attributes?_eq_of_excluded_eq_nil h] }

end Place

/-! ### Levels at the same position -/

/-- Levels at the same position of two descriptors, with the path of associations that leads to
the first one: the two roots, and what the levels at the same position list at the same
place. -/
inductive Descriptor.Beside : Descriptor → Descriptor → List String → Descriptor → Descriptor → Prop
    where
  | here (off on : Descriptor) : Beside off on [] off on
  | down {off on child child' level level' : Descriptor} {name : String} {path : List String}
      (hchild : (child, child') ∈ off.includes.zip on.includes)
      (hname : child.association = some name) (hlevel : Beside child child' path level level') :
      Beside off on (name :: path) level level'

namespace Place

variable {options options' : CompileOptions} {query : Query} {room : Nat} {place : Place}
  {tokens : List Token}

/-- Behind one relation after the other, the levels at the same position are behind the same
relation. -/
lemma mem_zip_below {names : List String} {child child' : Descriptor}
    (h : (child, child') ∈
      (names.filterMap fun name =>
          place.below options query room name (tokensBelow name tokens)).zip
        (names.filterMap fun name =>
          place.below options' query room name (tokensBelow name tokens))) :
    ∃ name next, place.enter? name = some next ∧
      child = (next.compiled options query room (tokensBelow name tokens)).under name ∧
      child' = (next.compiled options' query room (tokensBelow name tokens)).under name := by
  induction names with
  | nil => cases h
  | cons name names ih =>
      cases hnext : place.enter? name with
      | none => exact ih (by simpa [below, hnext] using h)
      | some next =>
          simp only [List.filterMap_cons, below, hnext, Option.map_some, List.zip_cons_cons,
            List.mem_cons, Prod.mk.injEq] at h
          rcases h with ⟨rfl, rfl⟩ | h
          · exact ⟨name, next, hnext, rfl, rfl⟩
          · exact ih h

end Place

/-- What a level says does not depend on what only a root or an association has. -/
lemma Descriptor.backFills_bare {place : Place} {off on : Descriptor}
    (h : off.bare.BackFills place on.bare) : off.BackFills place on :=
  ⟨h.includes, h.includeAll, h.allAttributes, h.attributes, h.added, h.excluded, h.unchanged⟩

/-- **At every position**, keys mode puts back excluded keys. -/
lemma backFills_of_beside {options options' : CompileOptions} {query : Query} {room : Nat}
    {place : Place} {tokens : List Token} {descriptor descriptor' off on : Descriptor}
    {path : List String} (hoff : options.includeKeys = false) (hon : options'.includeKeys = true)
    (hbare : descriptor.bare = place.compiled options query room tokens)
    (hbare' : descriptor'.bare = place.compiled options' query room tokens)
    (h : descriptor.Beside descriptor' path off on) :
    ∃ next, place.follow? path = some next ∧ off.BackFills next on := by
  induction h generalizing room place tokens with
  | here descriptor descriptor' =>
      refine ⟨place, rfl, Descriptor.backFills_bare ?_⟩
      rw [hbare, hbare']
      exact Place.backFills_compiled hoff hon room
  | @down descriptor descriptor' child child' off on name path hchild hname hlevel ih =>
      rw [← descriptor.includes_bare, ← descriptor'.includes_bare, hbare, hbare'] at hchild
      cases room with
      | zero => cases hchild
      | succ room =>
          rw [includes_compiled_eq_filterMap, includes_compiled_eq_filterMap] at hchild
          obtain ⟨other, next, hnext, rfl, rfl⟩ := Place.mem_zip_below hchild
          obtain rfl : other = name := Option.some.inj hname
          obtain ⟨last, hlast, hfills⟩ := ih (next.bare_compiled ..) (next.bare_compiled ..)
          refine ⟨last, ?_, hfills⟩
          rw [Place.follow?, hnext, Option.bind_some, hlast]

/-! ### Whole descriptors -/

/-- A compiler with keys mode on or off. -/
def Compiler.withKeys (compiler : Compiler) (keysMode : Bool) : Compiler :=
  { compiler with options := { compiler.options with includeKeys := keysMode } }

/-- **Keys mode only puts excluded keys back**: the descriptors of a query without it and with it
list the same associations in the same order at every level, and at the same position stand the
same levels, but for the keys of their place that are excluded without it and are attributes with
it. -/
theorem compile_keysMode (compiler : Compiler) (query : Query) {path : List String}
    {off on : Descriptor}
    (h : ((compiler.withKeys false).compile query).Beside ((compiler.withKeys true).compile query)
      path off on) :
    ∃ place, compiler.root.follow? path = some place ∧ off.BackFills place on :=
  backFills_of_beside rfl rfl ((compiler.withKeys false).bare_compile query)
    ((compiler.withKeys true).bare_compile query) h

/-- Books without their ids, with a filter on titles. -/
def bookQuery : Query where
  fields := some "mayor(),books(title=x,-id,author(-name))"

/-- The id of a book comes back ahead of its title. -/
theorem compile_keysMode_towns :
    ∃ off on, ((towns.withKeys false).compile bookQuery).Beside
        ((towns.withKeys true).compile bookQuery) ["books"] off on ∧
      (∃ place, towns.root.follow? ["books"] = some place ∧ off.BackFills place on) ∧
      off.attributes = ["title"] ∧ on.attributes = ["id", "title"] := by
  have hbooks : ∃ books ∈ ((towns.withKeys false).compile bookQuery).includes.zip
      ((towns.withKeys true).compile bookQuery).includes, books.1.association = some "books" ∧
        books.1.attributes = ["title"] ∧ books.2.attributes = ["id", "title"] := by
    decide +kernel
  obtain ⟨⟨off, on⟩, hmem, hname, hoff, hon⟩ := hbooks
  have hbeside := Descriptor.Beside.down hmem hname (.here off on)
  exact ⟨off, on, hbeside, compile_keysMode towns bookQuery hbeside, hoff, hon⟩

end FieldSelection
