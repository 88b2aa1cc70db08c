import FieldSelection.Proofs.Level.Notes

/-!
The nesting limit cuts descriptors off.

A compilation with a lower limit makes the descriptor that a higher limit makes, less the
levels that are nested too deeply. Every relation that is cut off is noted, so where
nothing is noted about nesting, nothing is missing.

* `Descriptor.truncate`: a descriptor without the levels below a depth.
* `Place.descriptor_truncate`: less room for levels truncates, by induction on the room.
* `Place.descriptor_eq_of_notes`: where nothing is noted about nesting, more room makes no
  difference.
* `compile_truncate`: so it is with whole descriptors.
-/

namespace FieldSelection

/-! ### Cutting off -/

/-- A descriptor without the levels that are nested more than `depth` relations deep. -/
def Descriptor.truncate : (depth : Nat) → Descriptor → Descriptor
  | 0, descriptor => { descriptor with includes := [] }
  | depth + 1, descriptor =>
    { descriptor with includes := descriptor.includes.map (Descriptor.truncate depth) }

lemma Descriptor.truncate_under (depth : Nat) (descriptor : Descriptor) (name : String) :
    (descriptor.under name).truncate depth = (descriptor.truncate depth).under name := by
  cases depth <;> rfl

namespace Place

variable (options : CompileOptions) (query : Query)

lemma truncate_level (place : Place) (request : Request) (depth : Nat)
    (includes : List Descriptor) :
    (place.level options query request includes).truncate (depth + 1)
      = place.level options query request (includes.map (Descriptor.truncate depth)) :=
  rfl

/-- A descriptor does not depend on the limit itself, only on the room that it leaves. -/
lemma descriptor_maxDepth (depth room : Nat) (place : Place) (request : Request) :
    Place.descriptor { options with maxDepth := depth } query room place request
      = Place.descriptor options query room place request := by
  induction room generalizing place request with
  | zero => rfl
  | succ room ih =>
      simp only [Place.descriptor, ih]
      rfl

/-- **Less room truncates.** With room for fewer levels, a descriptor is cut off below
them. -/
lemma descriptor_truncate (room extra : Nat) (place : Place) (request : Request) :
    Place.descriptor options query room place request
      = (Place.descriptor options query (room + extra) place request).truncate room := by
  induction room generalizing place request with
  | zero => cases extra <;> rfl
  | succ room ih =>
      have hsum : room + 1 + extra = room + extra + 1 := by omega
      have hunder : ∀ (next : Place) (asked : Request) (name : String),
          (Place.descriptor options query room next asked).under name
            = ((Place.descriptor options query (room + extra) next asked).under
                name).truncate room := by
        intro next asked name
        rw [Descriptor.truncate_under, ← ih]
      rw [hsum, Place.descriptor, Place.descriptor, truncate_level, List.map_append,
        List.map_filterMap, List.map_filterMap]
      simp only [Option.map_map, Function.comp_def, hunder]

/-- A level that asks for no relations is the same with and without room. -/
lemma descriptor_eq_of_no_relations (room : Nat) {place : Place} {request : Request}
    (hnamed : request.relations = []) (hwalked : place.walked request = []) :
    Place.descriptor options query room place request
      = place.level options query request [] := by
  cases room with
  | zero => rfl
  | succ room =>
      rw [Place.descriptor, hnamed, hwalked]
      rfl

/-- **Room that is not missed makes no difference.** Where nothing is noted about nesting,
more room makes the same descriptor. -/
lemma descriptor_eq_of_notes (room extra : Nat) {place : Place} {request : Request}
    (h : ∀ note ∈ Place.notes options room place request, note.isTooDeep = false) :
    Place.descriptor options query room place request
      = Place.descriptor options query (room + extra) place request := by
  induction room generalizing place request with
  | zero =>
      -- without room every relation is noted, so the request has none
      have hnamed : request.relations = [] := by
        refine List.eq_nil_iff_forall_not_mem.mpr fun relation hrelation => ?_
        cases h _ (mem_notes_zero.mpr (Or.inl ⟨relation, hrelation, rfl⟩))
      have hwalked : place.walked request = [] := by
        refine List.eq_nil_iff_forall_not_mem.mpr fun name hname => ?_
        cases h _ (mem_notes_zero.mpr (Or.inr ⟨name, hname, rfl⟩))
      rw [descriptor_eq_of_no_relations options query 0 hnamed hwalked,
        descriptor_eq_of_no_relations options query (0 + extra) hnamed hwalked]
  | succ room ih =>
      have hsum : room + 1 + extra = room + extra + 1 := by omega
      have hnamed : ∀ relation ∈ request.relations,
          ((place.enter? relation.name).map fun next =>
            (Place.descriptor options query room next
              (next.request options.includeKeys relation.segments)).under relation.name)
          = (place.enter? relation.name).map fun next =>
            (Place.descriptor options query (room + extra) next
              (next.request options.includeKeys relation.segments)).under relation.name := by
        intro relation hrelation
        refine Option.map_congr fun next hnext => ?_
        rw [ih fun note hnote => h note
          (mem_notes_succ.mpr (Or.inr (Or.inl ⟨relation, hrelation, next, hnext, Or.inr hnote⟩)))]
      have hwalked : ∀ name ∈ place.walked request,
          ((place.enter? name).map fun next =>
            (Place.descriptor options query room next .everything).under name)
          = (place.enter? name).map fun next =>
            (Place.descriptor options query (room + extra) next .everything).under name := by
        intro name hname
        refine Option.map_congr fun next hnext => ?_
        rw [ih fun note hnote => h note
          (mem_notes_succ.mpr (Or.inr (Or.inr ⟨name, hname, next, hnext, hnote⟩)))]
      rw [hsum, Place.descriptor, Place.descriptor, List.filterMap_congr hnamed,
        List.filterMap_congr hwalked]

end Place

/-! ### Whole descriptors -/

/-- A compiler with another nesting limit. -/
def Compiler.withMaxDepth (compiler : Compiler) (depth : Nat) : Compiler :=
  { compiler with options := { compiler.options with maxDepth := depth } }

/-- The descriptor of a query has as much room as the limit says. -/
lemma Compiler.compile_withMaxDepth (compiler : Compiler) (query : Query) (depth : Nat) :
    (compiler.withMaxDepth depth).compile query =
      { Place.descriptor compiler.options query depth compiler.root (compiler.request query) with
        limit := Query.valueOf query.limit
        offset := Query.valueOf query.offset
        col := Query.valueOf query.col
        distinct := Query.valueOf query.distinct
        order := query.order.elim [] fun text => parseOrder text.toList } := by
  rw [← Place.descriptor_maxDepth compiler.options query depth, compile, Descriptor.withParameters]
  cases query.order <;> rfl

/-- **The nesting limit cuts descriptors off.** With a lower limit, the descriptor of a
query is the one of a higher limit without the levels below the lower one. If no relation
is noted as nested too deeply, nothing is cut off. -/
theorem compile_truncate (compiler : Compiler) (query : Query) {depth depth' : Nat}
    (h : depth ≤ depth') :
    (compiler.withMaxDepth depth).compile query
        = ((compiler.withMaxDepth depth').compile query).truncate depth ∧
      ((∀ note ∈ (compiler.withMaxDepth depth).notes query, note.isTooDeep = false) →
        (compiler.withMaxDepth depth).compile query
          = (compiler.withMaxDepth depth').compile query) := by
  obtain ⟨extra, rfl⟩ := Nat.exists_eq_add_of_le h
  rw [compiler.compile_withMaxDepth, compiler.compile_withMaxDepth]
  constructor
  · rw [Place.descriptor_truncate compiler.options query depth extra]
    cases depth <;> rfl
  · intro hnotes
    have hlevels : Place.descriptor compiler.options query depth compiler.root
          (compiler.request query)
        = Place.descriptor compiler.options query (depth + extra) compiler.root
          (compiler.request query) :=
      calc Place.descriptor compiler.options query depth compiler.root (compiler.request query)
          = Place.descriptor (compiler.withMaxDepth depth).options query depth compiler.root
              (compiler.request query) := (Place.descriptor_maxDepth ..).symm
        _ = Place.descriptor (compiler.withMaxDepth depth).options query (depth + extra)
              compiler.root (compiler.request query) :=
            Place.descriptor_eq_of_notes _ query depth extra fun note hnote =>
              hnotes note (List.mem_append_right _ hnote)
        _ = Place.descriptor compiler.options query (depth + extra) compiler.root
              (compiler.request query) := Place.descriptor_maxDepth ..
    rw [hlevels]

/-- A compiler for houses with rooms and furniture, and owners who have other houses. -/
def houses : Compiler where
  shape := some [("street", .field none),
    ("rooms", .many [("name", .field none),
      ("furniture", .many [("kind", .field none), ("maker", .one [("name", .field none)])])]),
    ("owner", .one [("name", .field none), ("houses", .many [("street", .field none)])])]

/-- Asks for rooms with everything in them, and for owners with their houses. -/
def houseQuery : Query where
  fields := some "rooms(-name,all),street,owner(houses())"

/-- With room for one level, rooms and owners are left without what is below them, as is noted;
three levels are as good as seven, since nothing is noted about nesting. -/
theorem compile_truncate_houses :
    (houses.withMaxDepth 1).compile houseQuery
        = ((houses.withMaxDepth 7).compile houseQuery).truncate 1 ∧
      (∃ note ∈ (houses.withMaxDepth 1).notes houseQuery, note.isTooDeep = true) ∧
      (∀ note ∈ (houses.withMaxDepth 3).notes houseQuery, note.isTooDeep = false) ∧
      (houses.withMaxDepth 3).compile houseQuery = (houses.withMaxDepth 7).compile houseQuery := by
  have hnotes : ∀ note ∈ (houses.withMaxDepth 3).notes houseQuery, note.isTooDeep = false := by
    decide
  exact ⟨(compile_truncate houses houseQuery (by decide)).1, by decide, hnotes,
    (compile_truncate houses houseQuery (by decide)).2 hnotes⟩

end FieldSelection
