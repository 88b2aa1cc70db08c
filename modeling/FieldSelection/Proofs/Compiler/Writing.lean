import FieldSelection.Proofs.Descriptor.Layout
import FieldSelection.Proofs.Level.Reach

/-!
What is written of a compiled descriptor tells the descriptor.

A layout that leaves out what is empty and writes a filter without its kind could confuse
descriptors. Compiled ones it does not: their filters stand in the order of their names, and none
of them is on one value that is an array.

* `Place.readable_of_bare`: what the tokens of a level make can be told from what is written, by
  induction on the levels.
* `compile_toJson_injective`: descriptors that are written equally are equal, for both
  equalities of values.
-/

namespace FieldSelection

open FieldSelection.Selection

namespace Place

variable {options : CompileOptions} {query : Query} {place : Place} {room : Nat}
  {tokens : List Token}

/-- A filter that is written with a field is on a text. -/
lemma ofJson_toJson_of_inline? {keysMode : Bool} {name : String} {value : FilterValue}
    (h : place.inline? keysMode tokens name = some value) :
    FilterValue.ofJson value.toJson = value := by
  rw [inline?] at h
  split at h
  · obtain ⟨text, -, rfl⟩ := Option.map_eq_some_iff.mp h
    rfl
  · cases h

/-- A filter of a level is one of the query or is written with a field, and either is read back
as it was. -/
lemma ofJson_toJson_of_mem_filters {name : String} {value : FilterValue}
    (h : (name, value) ∈ (place.compiled options query room tokens).filters) :
    FilterValue.ofJson value.toJson = value := by
  have hvalue := Entries.lookup?_of_mem sorted_filters_compiled.nodup_keys h
  rw [lookup?_filters_compiled] at hvalue
  split at hvalue
  · rcases Option.or_eq_some_iff.mp hvalue with hquery | ⟨-, hinline⟩
    · obtain ⟨asked, -, rfl⟩ := Option.map_eq_some_iff.mp hquery
      exact FilterValue.ofJson_toJson_ofQuery asked
    · exact ofJson_toJson_of_inline? hinline
  · exact ofJson_toJson_of_inline? hvalue

/-- **What the tokens of a level make** can be told from what is written of it. -/
lemma readable_of_bare {descriptor : Descriptor}
    (h : descriptor.bare = place.compiled options query room tokens) : descriptor.Readable := by
  induction descriptor using Descriptor.ind generalizing place room tokens with
  | h descriptor ih =>
      have hfilters : descriptor.filters
          = (place.compiled options query room tokens).filters := by rw [← h]; rfl
      have hincludes : descriptor.includes
          = (place.compiled options query room tokens).includes := by rw [← h]; rfl
      refine .intro ?_ ?_ ?_
      · rw [hfilters]
        exact sorted_filters_compiled
      · rw [hfilters]
        exact fun entry hm => ofJson_toJson_of_mem_filters hm
      · intro child hchild
        obtain ⟨name, next, room', -, -, hmade⟩ := mem_includes_compiled (hincludes ▸ hchild)
        have hbare : child.bare
            = next.compiled options query room' (tokensBelow name tokens) := by
          rw [hmade, Descriptor.bare_under, bare_compiled]
        exact ih child hchild hbare

end Place

lemma Compiler.readable_compile (compiler : Compiler) (query : Query) :
    (compiler.compile query).Readable :=
  Place.readable_of_bare (compiler.bare_compile query)

/-- **What is written of a descriptor tells the descriptor**: whatever two compilations are
asked for and against what, descriptors that are written as the same value are the same. Where
the two values have the same keys in different orders, so have only the parameters that are
passed on and the values of the filters. -/
theorem compile_toJson_injective (compiler compiler' : Compiler) (query query' : Query) :
    ((compiler.compile query).toJson = (compiler'.compile query').toJson →
      compiler.compile query = compiler'.compile query') ∧
    ((compiler.compile query).toJson.Same (compiler'.compile query').toJson →
      (compiler.compile query).SameBy Json.Same (compiler'.compile query')) := by
  have hread := compiler.readable_compile query
  have hread' := compiler'.readable_compile query'
  exact ⟨fun h => Descriptor.eq_of_sameBy
      (Descriptor.sameBy_of_toJson Json.discerning_eq hread hread' h),
    fun h => Descriptor.sameBy_of_toJson Json.discerning_same hread hread' h⟩

/-- Asks for titles from one number to another, where the limit is an object with these keys. -/
def pagedTitles (fields : String) (limit : List (String × Json)) : Query where
  fields := some fields
  limit := some (.object limit)
  filters := [("title", .string "Emma,Ulysses")]

/-- What is written for titles. -/
def writtenTitles (limit : List (String × Json)) : Json :=
  .object [("attributes", .strings ["title"]),
    ("where", .object [("title", .strings ["Emma", "Ulysses"])]),
    ("required", .bool true), ("limit", .object limit)]

/-- Asking for titles twice is asking for them once, and whether the limit starts with its lower
or its upper end does not matter. -/
theorem compile_toJson_injective_titles :
    Compiler.compile {} (pagedTitles "title,title" [("from", .nat 1), ("to", .nat 9)])
      = Compiler.compile {} (pagedTitles "title" [("from", .nat 1), ("to", .nat 9)]) ∧
    (Compiler.compile {} (pagedTitles "title" [("from", .nat 1), ("to", .nat 9)])).SameBy Json.Same
      (Compiler.compile {} (pagedTitles "title" [("to", .nat 9), ("from", .nat 1)])) := by
  have hlimit : (Json.object [("from", .nat 1), ("to", .nat 9)]).Same
      (.object [("to", .nat 9), ("from", .nat 1)]) :=
    .of_perm (.swap _ _ _) (by decide)
  have hlower : (Compiler.compile {}
      (pagedTitles "title" [("from", .nat 1), ("to", .nat 9)])).toJson
        = writtenTitles [("from", .nat 1), ("to", .nat 9)] := by decide +kernel
  have hupper : (Compiler.compile {}
      (pagedTitles "title" [("to", .nat 9), ("from", .nat 1)])).toJson
        = writtenTitles [("to", .nat 9), ("from", .nat 1)] := by decide +kernel
  refine ⟨(compile_toJson_injective _ _ _ _).1 (by decide +kernel),
    (compile_toJson_injective _ _ _ _).2 ?_⟩
  rw [hlower, hupper]
  exact .cons _ (.refl _) (.cons _ (.refl _) (.cons _ (.refl _) (.cons _ hlimit (.refl _))))

end FieldSelection
