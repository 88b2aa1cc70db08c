import FieldSelection.Proofs.Level.Equivalence
import FieldSelection.Proofs.Level.Reach
import FieldSelection.Proofs.Query.Writing

/-!
Descriptors are well formed.

Whatever a selection says, every level of its descriptor lists a name in one role only and an
association once, leaves open only what cannot be listed, and says how its filters count exactly
if it has filters. What concerns the whole query stands at the root.

* `Descriptor.WellFormed`: a level that is well formed at its place.
* `Descriptor.Outermost`, `Descriptor.Behind`: the parts that only a root has, and a level that
  has none of them.
* `Place.wellFormed_compiled`: the tokens of a level make such levels.
* `eq_under_of_reaches`: below the root, a level is a bare one under its association.
* `compile_wellFormed`: so every level of a descriptor is well formed.
-/

namespace FieldSelection

open FieldSelection.Selection

/-- **A level that is well formed** at a place: no name is in two roles, no association is listed
twice or without its name, and the level leaves open only what the place has nothing to list
from. -/
structure Descriptor.WellFormed (level : Descriptor) (place : Place) : Prop where
  disjoint : ∀ name ∈ level.attributes, name ∉ level.excluded
  nodup_excluded : level.excluded.Nodup
  allAttributes : level.allAttributes = true →
    level.attributes = [] ∧ place.shape = none ∧ place.schema = none
  includeAll : level.includeAll = true → place.shape = none
  required : level.filters ≠ [] ↔ level.required.isSome = true
  associations : ∀ child ∈ level.includes, ∃ name, child.association = some name ∧ name ≠ ""
  nodup_associations : (level.includes.map (·.association)).Nodup

/-- A level that no association leads to; the parameters that it passes on are values. -/
structure Descriptor.Outermost (level : Descriptor) : Prop where
  association : level.association = none
  limit : level.limit ≠ some .null
  offset : level.offset ≠ some .null
  col : level.col ≠ some .null
  distinct : level.distinct ≠ some .null

/-- A level behind an association, without an order and without parameters. -/
structure Descriptor.Behind (level : Descriptor) (name : String) : Prop where
  association : level.association = some name
  limit : level.limit = none
  offset : level.offset = none
  order : level.order = []
  col : level.col = none
  distinct : level.distinct = none

/-! ### Places with a shape -/

lemma Shape.Everywhere.of_behind? {P : Shape → Prop} {shape sub : Shape} {name : String}
    (h : shape.Everywhere P) (hsub : shape.behind? name = some sub) : sub.Everywhere P := by
  obtain ⟨node, hnode, hs⟩ := exists_of_behind? hsub
  exact h.behind hnode hs

namespace Place

/-- The shape of a place, if it has one, repeats no keys. -/
def Distinct (place : Place) : Prop :=
  ∀ shape, place.shape = some shape → shape.Distinct

lemma Distinct.enter? {place next : Place} {name : String} (hd : place.Distinct)
    (h : place.enter? name = some next) : next.Distinct := by
  intro sub hsub
  obtain ⟨-, hshape, -, -⟩ := enter?_eq_some_iff.mp h
  rw [enterShape?, hsub] at hshape
  cases hplace : place.shape with
  | none => simp [hplace] at hshape
  | some shape =>
      rw [hplace] at hshape
      obtain ⟨other, hother, heq⟩ := Option.map_eq_some_iff.mp hshape
      cases heq
      exact (hd shape hplace).of_behind? hother

/-! ### One level -/

variable {options : CompileOptions} {query : Query} {place : Place} {room : Nat}
  {tokens : List Token}

lemma Distinct.nodup_relations (hd : place.Distinct) : place.relations.Nodup := by
  rw [relations]
  split
  · next shape hshape => exact Shape.nodup_keys_relations (hd shape hshape).here
  · exact List.nodup_nil

/-- A level asks for a relation once: those that are named are named once, and what a token `all`
adds is not among them. -/
lemma nodup_relations_asked (hd : place.Distinct) (tokens : List Token) :
    (relationNames tokens ++ place.unnamed tokens).Nodup := by
  have hunnamed : (place.unnamed tokens).Nodup := by
    rw [unnamed]
    split
    · exact hd.nodup_relations.filter _
    · exact List.nodup_nil
  exact (nodup_relationNames tokens).append hunnamed fun name hname hadded =>
    (notMem_of_mem_unnamed hadded).1 hname

/-- So it lists an association once. -/
lemma nodup_association_includes (hd : place.Distinct) :
    ((place.compiled options query room tokens).includes.map (·.association)).Nodup := by
  cases room with
  | zero => exact List.nodup_nil
  | succ room =>
      rw [map_association_includes, named, ← List.filter_append]
      exact ((nodup_relations_asked hd tokens).filter _).map (Option.some_injective _)

/-- **The tokens of a level** make a level that is well formed. -/
lemma wellFormed_compiled (hd : place.Distinct) :
    (place.compiled options query room tokens).WellFormed place where
  disjoint name hname hexcluded := by
    rw [compiled_eq_level] at hname hexcluded
    exact (of_decide_eq_true (List.mem_filter.mp hexcluded).2) hname
  nodup_excluded := by
    have hasked : (place.asked options.includeKeys tokens).excluded.Nodup := by
      rw [asked_excluded]
      exact nodup_distinctNames _
    rw [compiled_eq_level]
    exact hasked.filter _
  allAttributes h := by
    rw [compiled_eq_level] at h ⊢
    have hnone : place.attributes? options.includeKeys
        (place.asked options.includeKeys tokens) = none := Option.isNone_iff_eq_none.mp h
    refine ⟨?_, fields?_eq_none (fields?_eq_none_of_attributes? hnone)⟩
    rw [level, hnone]
    rfl
  includeAll h := by
    rw [includeAll_compiled, Bool.and_eq_true] at h
    exact Option.isNone_iff_eq_none.mp h.2
  required := by
    rw [compiled_eq_level, Option.isSome_iff_ne_none]
    exact not_congr required_eq_none_iff.symm
  associations child hchild := by
    obtain ⟨name, next, room', hnext, -, rfl⟩ := mem_includes_compiled hchild
    exact ⟨name, rfl, (enter?_eq_some_iff.mp hnext).1⟩
  nodup_associations := nodup_association_includes hd

end Place

/-- Whether a level is well formed does not depend on what only a root or an association has. -/
lemma Descriptor.wellFormed_bare {level : Descriptor} {place : Place}
    (h : level.bare.WellFormed place) : level.WellFormed place :=
  ⟨h.disjoint, h.nodup_excluded, h.allAttributes, h.includeAll, h.required, h.associations,
    h.nodup_associations⟩

/-! ### The root and the levels below it -/

/-- Below the root, a level is a bare one under the association that leads to it. -/
lemma eq_under_of_reaches {options : CompileOptions} {query : Query} {room : Nat} {place : Place}
    {tokens : List Token} {descriptor level : Descriptor} {path : List String} {name : String}
    (hbare : descriptor.bare = place.compiled options query room tokens)
    (h : descriptor.Reaches path level) (hname : path.getLast? = some name) :
    level = level.bare.under name := by
  induction h generalizing room place tokens with
  | here level => cases hname
  | @down descriptor child level relation path hchild hrelation hlevel ih =>
      rw [← descriptor.includes_bare, hbare] at hchild
      obtain ⟨next, room', -, -, rfl⟩ := of_mem_includes_compiled hchild hrelation
      have hnextBare := (Descriptor.bare_under _ relation).trans
        (Place.bare_compiled options query next (tokensBelow relation tokens) room')
      cases path with
      | nil =>
          cases hlevel
          obtain rfl : relation = name := Option.some.inj hname
          rw [Descriptor.bare_under, Place.bare_compiled]
      | cons other path => exact ih hnextBare (by simpa using hname)

/-- **Descriptors are well formed** at every level, whatever was asked for. Only the root has no
association that leads to it, and only the root has an order and parameters, none of them
`null`. -/
theorem compile_wellFormed {compiler : Compiler} {query : Query} {path : List String}
    {level : Descriptor} (hshape : ∀ shape, compiler.shape = some shape → shape.Distinct)
    (h : (compiler.compile query).Reaches path level) :
    (∃ place, compiler.root.follow? path = some place ∧ level.WellFormed place) ∧
      (path = [] → level.Outermost) ∧ ∀ name, path.getLast? = some name → level.Behind name := by
  refine ⟨?_, ?_, fun name hname => ?_⟩
  · obtain ⟨place, room, hplace, hbare⟩ := reaches_compile h
    have hroot : compiler.root.Distinct := hshape
    refine ⟨place, hplace, Descriptor.wellFormed_bare ?_⟩
    rw [hbare]
    exact Place.wellFormed_compiled (Place.of_follow? .enter? hroot hplace)
  · rintro rfl
    cases h
    have hassociation : (compiler.compile query).association = none := by
      rw [Compiler.compile_eq, Place.compiled_eq_level]
      rfl
    exact ⟨hassociation, Query.valueOf_ne_null _, Query.valueOf_ne_null _,
      Query.valueOf_ne_null _, Query.valueOf_ne_null _⟩
  · rw [eq_under_of_reaches (compiler.bare_compile query) h hname]
    exact ⟨rfl, rfl, rfl, rfl, rfl, rfl⟩

/-- A compiler for gardens with their plants and the beds that these stand in. -/
def gardens : Compiler where
  shape := some [("owner", .field none), ("plants", .many [("id", .field (some .primary)),
    ("name", .field none), ("bed", .one [("soil", .field none), ("width", .field none)])])]
  options := { includeKeys := true }

/-- Asks for plants three times and for their beds by `all`, excludes what it asks for, and has a
parameter that is `null`. -/
def gardenQuery : Query where
  fields := some "plants(name,-name,-id),owner,plants(id,name=Lily),plants(all,-name)"
  order := some "-owner"
  limit := some .null
  offset := some (.nat 3)
  filters := [("plants.name", .string "Rose"), ("plants.bed.soil", .string "clay,loam")]

/-- The plants and their beds are well formed all the same. -/
theorem compile_wellFormed_gardens :
    ∃ plants bed, (gardens.compile gardenQuery).Reaches ["plants"] plants ∧
      (gardens.compile gardenQuery).Reaches ["plants", "bed"] bed ∧
      (∃ place, gardens.root.follow? ["plants"] = some place ∧ plants.WellFormed place) ∧
      plants.Behind "plants" ∧ bed.Behind "bed" := by
  have hplants : ((gardens.compile gardenQuery).at? ["plants"]).isSome := by decide
  have hbed : ((gardens.compile gardenQuery).at? ["plants", "bed"]).isSome := by decide
  obtain ⟨plants, hplants⟩ := Option.isSome_iff_exists.mp hplants
  obtain ⟨bed, hbed⟩ := Option.isSome_iff_exists.mp hbed
  have hshape : ∀ shape, gardens.shape = some shape → shape.Distinct := by
    rintro _ ⟨⟩
    decide
  obtain ⟨hwell, -, hbehind⟩ := compile_wellFormed hshape (.of_at? hplants)
  obtain ⟨-, -, hbehind'⟩ := compile_wellFormed hshape (.of_at? hbed)
  exact ⟨plants, bed, .of_at? hplants, .of_at? hbed, hwell, hbehind _ rfl, hbehind' _ rfl⟩

end FieldSelection
