import FieldSelection.Descriptor.Layout
import FieldSelection.Proofs.Json.Same
import FieldSelection.Proofs.Level.Equivalence

/-!
What is written of a descriptor tells the descriptor.

Most parts of a descriptor are left out when they are empty, filters are written without their
kind, and the direction of a sort stands behind its path. All the same nothing is lost, as long
as no single filter value is an array and filters are in the order of their names.

* `Descriptor.parts`, `Descriptor.toJson_eq`: the parts that are written, in order.
* `Descriptor.Readable`: the descriptors that can be told from what is written.
* `Descriptor.SameBy`: equal descriptors, for a given equality of values.
* `Descriptor.sameBy_of_toJson`: descriptors that are written equally are equal, by induction
  on their levels.
-/

namespace FieldSelection

variable {R : Json → Json → Prop}

/-! ### Filter values -/

/-- Filter values of the same kind with equal values. -/
inductive FilterValue.SameBy (R : Json → Json → Prop) : FilterValue → FilterValue → Prop where
  | many {values others : List Json} (h : List.Forall₂ R values others) :
      SameBy R (.many values) (.many others)
  | one {value other : Json} (h : R value other) : SameBy R (.one value) (.one other)

/-- Values that are equal are read as equal filter values. -/
lemma FilterValue.sameBy_ofJson (hR : Json.Discerning R) {value other : Json} (h : R value other) :
    (ofJson value).SameBy R (ofJson other) := by
  have hkind := hR.isArray h
  cases value with
  | array values =>
      cases other with
      | array others => exact .many (hR.array h)
      | _ => cases hkind
  | _ =>
      cases other with
      | array others => cases hkind
      | _ => exact .one h

lemma FilterValue.eq_of_sameBy {value other : FilterValue} (h : value.SameBy Eq other) :
    value = other := by
  cases h with
  | many h =>
      rw [List.forall₂_eq_eq_eq] at h
      rw [h]
  | one h => rw [h]

/-- A filter of a query is read back as it was. -/
lemma FilterValue.ofJson_toJson_ofQuery (value : Json) :
    ofJson (ofQuery value).toJson = ofQuery value := by
  cases value with
  | string s =>
      rw [ofQuery]
      split <;> rfl
  | _ => rfl

/-! ### The order -/

lemma Direction.word_injective {direction other : Direction} (h : direction.word = other.word) :
    direction = other := by
  cases direction <;> cases other
  · rfl
  · exact absurd h (by decide)
  · exact absurd h (by decide)
  · rfl

lemma OrderEntry.segments_injective {entry other : OrderEntry}
    (h : entry.segments = other.segments) : entry = other := by
  obtain ⟨hpath, hword⟩ := List.append_inj' h rfl
  have hdirection := Direction.word_injective (List.singleton_inj.mp hword)
  calc entry = ⟨entry.path, entry.direction⟩ := rfl
    _ = ⟨other.path, other.direction⟩ := by rw [hpath, hdirection]

namespace Descriptor

/-- The induction principle of descriptors: a property holds of every descriptor once it is
inherited from the levels right below it. -/
@[elab_as_elim]
theorem ind {P : Descriptor → Prop}
    (h : ∀ descriptor : Descriptor, (∀ child ∈ descriptor.includes, P child) → P descriptor)
    (descriptor : Descriptor) : P descriptor :=
  @Descriptor.rec P (fun descriptors => ∀ child ∈ descriptors, P child)
    (fun _ _ _ _ _ _ _ _ _ _ _ _ _ ih => h _ ih)
    (fun _ hm => absurd hm List.not_mem_nil)
    (fun _ _ hhead htail => List.forall_mem_cons.mpr ⟨hhead, htail⟩)
    descriptor

/-! ### The parts that are written -/

/-- A value that is left out together with a list that is empty. -/
def unlessEmpty {α : Type} (items : List α) (value : Json) : Option Json :=
  if items.isEmpty then none else some value

/-- A mark that is left out when it is not set. -/
def mark (set : Bool) : Option Json :=
  if set then some (.bool true) else none

/-- The parts of a descriptor in the order in which they are written, as far as they are. -/
def parts (descriptor : Descriptor) : List (String × Option Json) :=
  [ ("attributes", some (.strings descriptor.attributes)),
    ("allAttributes", mark descriptor.allAttributes),
    ("exclude", unlessEmpty descriptor.excluded (.strings descriptor.excluded)),
    ("where", unlessEmpty descriptor.filters
      (.object (descriptor.filters.map fun (name, value) => (name, value.toJson)))),
    ("required", descriptor.required.map .bool),
    ("include", unlessEmpty descriptor.includes (.array (descriptor.includes.map toJson))),
    ("includeAll", mark descriptor.includeAll),
    ("association", descriptor.association.map .string),
    ("limit", descriptor.limit),
    ("offset", descriptor.offset),
    ("order", unlessEmpty descriptor.order
      (.array (descriptor.order.map fun entry => .strings entry.segments))),
    ("col", descriptor.col),
    ("distinct", descriptor.distinct) ]

lemma toJsonAll_eq_map (descriptors : List Descriptor) :
    toJsonAll descriptors = descriptors.map toJson := by
  induction descriptors with
  | nil => rfl
  | cons descriptor rest ih => rw [toJsonAll, List.map_cons, ih]

lemma part_mark (set : Bool) (key : String) :
    part (!set) key (.bool true) = ((mark set).map (key, ·)).toList := by
  cases set <;> rfl

lemma part_isEmpty {α : Type} (items : List α) (key : String) (value : Json) :
    part items.isEmpty key value = ((unlessEmpty items value).map (key, ·)).toList := by
  cases items <;> rfl

lemma optional_eq (key : String) (value : Option Json) :
    optional key value = (value.map (key, ·)).toList := by
  cases value <;> rfl

/-- A descriptor is written as the parts that it has. -/
lemma toJson_eq (descriptor : Descriptor) :
    descriptor.toJson
      = .object (descriptor.parts.filterMap fun entry => entry.2.map (entry.1, ·)) := by
  cases descriptor
  rw [toJson, List.filterMap_eq_flatMap_toList]
  simp only [part_mark, part_isEmpty, optional_eq, toJsonAll_eq_map, parts, List.flatMap_cons,
    List.flatMap_nil, List.append_nil, List.append_assoc, Option.map_some, Option.toList_some,
    List.singleton_append]

/-- The part under a key, as far as there is one. -/
def part? (descriptor : Descriptor) (key : String) : Option Json :=
  (Entries.lookup? key descriptor.parts).bind id

lemma nodup_keys_parts (descriptor : Descriptor) : (Entries.keys descriptor.parts).Nodup := by
  have hkeys : Entries.keys descriptor.parts
      = Entries.keys (parts {}) := rfl
  rw [hkeys]
  decide

/-- Descriptors that are written equally have equal parts. -/
lemma rel_part? (hR : Json.Discerning R) {descriptor other : Descriptor}
    (h : R descriptor.toJson other.toJson) (key : String) :
    Option.Rel R (descriptor.part? key) (other.part? key) := by
  have hwritten : ∀ written : Descriptor, Entries.lookup? key
      (written.parts.filterMap fun entry => entry.2.map (entry.1, ·)) = written.part? key :=
    fun written => Entries.lookup?_filterMap written.nodup_keys_parts (fun _ => id) key
  rw [toJson_eq, toJson_eq] at h
  rw [← hwritten, ← hwritten]
  exact hR.object h key

/-! ### Equal parts -/

section Parts

variable {α β : Type}

lemma eq_of_rel_mark {set set' : Bool} (h : Option.Rel R (mark set) (mark set')) : set = set' := by
  cases set <;> cases set'
  · rfl
  · cases h
  · cases h
  · rfl

lemma eq_of_rel_map {f : α → Json} (hf : ∀ {a b : α}, R (f a) (f b) → a = b)
    {part other : Option α} (h : Option.Rel R (part.map f) (other.map f)) : part = other := by
  cases part <;> cases other <;> cases h
  · rfl
  · next h => rw [hf h]

lemma forall₂_of_rel_unlessEmpty (hR : Json.Discerning R) {f : α → Json} {g : β → Json}
    {items : List α} {others : List β}
    (h : Option.Rel R (unlessEmpty items (.array (items.map f)))
      (unlessEmpty others (.array (others.map g)))) :
    List.Forall₂ (fun item other => R (f item) (g other)) items others := by
  cases items <;> cases others <;> cases h
  · exact .nil
  · next h =>
    have hitems := hR.array h
    rwa [List.forall₂_map_left_iff, List.forall₂_map_right_iff] at hitems

lemma rel_lookup?_of_rel_unlessEmpty (hR : Json.Discerning R) {f : α → String × Json}
    {g : β → String × Json} {items : List α} {others : List β}
    (h : Option.Rel R (unlessEmpty items (.object (items.map f)))
      (unlessEmpty others (.object (others.map g)))) (key : String) :
    Option.Rel R (Entries.lookup? key (items.map f)) (Entries.lookup? key (others.map g)) := by
  cases items <;> cases others <;> cases h
  · exact .none
  · next h => exact hR.object h key

end Parts

/-! ### Equal descriptors -/

/-- **A descriptor that can be told** from what is written of it: at every level the filters are
in the order of their names, and a filter on one value is not on an array. -/
inductive Readable : Descriptor → Prop where
  | intro {descriptor : Descriptor} (sorted : Entries.Sorted descriptor.filters)
      (plain : ∀ entry ∈ descriptor.filters, FilterValue.ofJson entry.2.toJson = entry.2)
      (below : ∀ child ∈ descriptor.includes, Readable child) : Readable descriptor

/-- **Equal descriptors**: levels with the same parts, as far as these are not values, and with
equal values. -/
inductive SameBy (R : Json → Json → Prop) : Descriptor → Descriptor → Prop where
  | intro {descriptor other : Descriptor}
      (attributes : descriptor.attributes = other.attributes)
      (allAttributes : descriptor.allAttributes = other.allAttributes)
      (excluded : descriptor.excluded = other.excluded)
      (filters : List.Forall₂ (fun entry entry' => entry.1 = entry'.1 ∧ entry.2.SameBy R entry'.2)
        descriptor.filters other.filters)
      (required : descriptor.required = other.required)
      (includes : List.Forall₂ (SameBy R) descriptor.includes other.includes)
      (includeAll : descriptor.includeAll = other.includeAll)
      (association : descriptor.association = other.association)
      (limit : Option.Rel R descriptor.limit other.limit)
      (offset : Option.Rel R descriptor.offset other.offset)
      (order : descriptor.order = other.order)
      (col : Option.Rel R descriptor.col other.col)
      (distinct : Option.Rel R descriptor.distinct other.distinct) : SameBy R descriptor other

/-- Filters that are written equally are equal. -/
lemma sameBy_filters (hR : Json.Discerning R) {descriptor other : Descriptor}
    (hd : Readable descriptor) (hd' : Readable other)
    (h : Option.Rel R (descriptor.part? "where") (other.part? "where")) :
    List.Forall₂ (fun entry entry' => entry.1 = entry'.1 ∧ entry.2.SameBy R entry'.2)
      descriptor.filters other.filters := by
  obtain ⟨hsorted, hplain, -⟩ := hd
  obtain ⟨hsorted', hplain', -⟩ := hd'
  have hkeys : ∀ filters : List (String × FilterValue),
      Entries.keys (filters.map fun (name, value) => (name, value.toJson))
        = Entries.keys filters := by
    intro filters
    rw [Entries.keys, List.map_map]
    rfl
  have hwritten := Entries.Sorted.forall₂ (by rwa [Entries.Sorted, hkeys])
    (by rwa [Entries.Sorted, hkeys]) (rel_lookup?_of_rel_unlessEmpty hR h)
  rw [List.forall₂_map_left_iff, List.forall₂_map_right_iff] at hwritten
  refine forall₂_imp_of_mem hwritten ?_
  rintro entry hm entry' hm' ⟨hname, hvalue⟩
  have hread := FilterValue.sameBy_ofJson hR hvalue
  rw [hplain entry hm, hplain' entry' hm'] at hread
  exact ⟨hname, hread⟩

/-- Orders that are written equally are equal. -/
lemma order_eq (hR : Json.Discerning R) {descriptor other : Descriptor}
    (h : Option.Rel R (descriptor.part? "order") (other.part? "order")) :
    descriptor.order = other.order := by
  rw [← List.forall₂_eq_eq_eq]
  exact (forall₂_of_rel_unlessEmpty hR h).imp fun _ _ hentry =>
    OrderEntry.segments_injective (hR.strings hentry)

/-- **Descriptors that are written equally are equal**, level by level. -/
theorem sameBy_of_toJson (hR : Json.Discerning R) {descriptor other : Descriptor}
    (hd : Readable descriptor) (hd' : Readable other) (h : R descriptor.toJson other.toJson) :
    SameBy R descriptor other := by
  induction hd generalizing other with
  | @intro descriptor sorted plain below ih =>
      have hpart := rel_part? hR h
      have hbelow' : ∀ child ∈ other.includes, Readable child := by
        cases hd' with
        | intro _ _ below => exact below
      have hattributes : R (.strings descriptor.attributes) (.strings other.attributes) :=
        Option.rel_some_some.mp (hpart "attributes")
      have hexcluded : List.Forall₂ (· = ·) descriptor.excluded other.excluded :=
        (forall₂_of_rel_unlessEmpty hR (hpart "exclude")).imp fun _ _ => hR.string
      have hincludes := forall₂_of_rel_unlessEmpty hR (hpart "include")
      exact .intro
        (hR.strings hattributes)
        (eq_of_rel_mark (hpart "allAttributes"))
        (List.forall₂_eq_eq_eq ▸ hexcluded)
        (sameBy_filters hR (.intro sorted plain below) hd' (hpart "where"))
        (eq_of_rel_map hR.bool (hpart "required"))
        (forall₂_imp_of_mem hincludes fun child hm child' hm' =>
          ih child hm (hbelow' child' hm'))
        (eq_of_rel_mark (hpart "includeAll"))
        (eq_of_rel_map hR.string (hpart "association"))
        (hpart "limit")
        (hpart "offset")
        (order_eq hR (hpart "order"))
        (hpart "col")
        (hpart "distinct")

/-- Descriptors with the same values are the same. -/
lemma eq_of_sameBy {descriptor other : Descriptor} (h : SameBy Eq descriptor other) :
    descriptor = other := by
  induction descriptor using ind generalizing other with
  | h descriptor ih =>
      cases h with
      | intro attributes allAttributes excluded filters required includes includeAll association
          limit offset order col distinct =>
        have hfilters : descriptor.filters = other.filters := by
          rw [← List.forall₂_eq_eq_eq]
          exact filters.imp fun _ _ hentry =>
            Prod.ext hentry.1 (FilterValue.eq_of_sameBy hentry.2)
        have hincludes : descriptor.includes = other.includes := by
          rw [← List.forall₂_eq_eq_eq]
          exact forall₂_imp_of_mem includes fun child hm _ _ => ih child hm
        cases descriptor
        cases other
        rw [mk.injEq]
        exact ⟨attributes, allAttributes, excluded, hfilters, required, hincludes, includeAll,
          association, rel_eq_iff.mp limit, rel_eq_iff.mp offset, order, rel_eq_iff.mp col,
          rel_eq_iff.mp distinct⟩

end Descriptor

end FieldSelection
