import FieldSelection.Proofs.Compiler.Containment
import FieldSelection.Proofs.Compiler.Repetition
import FieldSelection.Proofs.Level.Notes

/-!
Explicit selections are read back.

A descriptor that lists fields and relations by name, level by level, can be written as a
selection text. What the text selects is the descriptor again.

* `Descriptor.rendering`: the text of a descriptor; `Descriptor.depth` counts its levels.
* `Descriptor.Explicit`: the descriptors that list fields and relations of a shape, and
  nothing else.
* `Descriptor.Explicit.tokens_rendering`: reading the text of a level gives one token an
  attribute and one a relation.
* `Descriptor.Explicit.compiled_eq`, `Descriptor.Explicit.quiet`: these tokens select the
  level, and there is nothing to note about them, by induction on the levels.
* `compile_rendering`: so it is with whole selections.
-/

namespace FieldSelection

open FieldSelection.Selection FieldSelection.Text

namespace Descriptor

/-! ### Writing a descriptor -/

/-- The level that lists attributes and, behind relations, further levels. -/
def listed (attributes : List String) (children : List (String × Descriptor)) : Descriptor where
  attributes
  includes := children.map fun child => child.2.under child.1

mutual

/-- A descriptor as a selection text: its attributes, and then its associations with the texts
of their levels. -/
def rendering : Descriptor → List Char
  | { attributes, includes, .. } => join ',' (attributes.map String.toList ++ mentions includes)

/-- How a selection text mentions associations. -/
def mentions : List Descriptor → List (List Char)
  | [] => []
  | child :: rest => relationText (child.association.getD "") child.rendering :: mentions rest

end

mutual

/-- How deeply the levels of a descriptor are nested. -/
def depth : Descriptor → Nat
  | { includes, .. } => depthBelow includes

/-- The nesting of a level that includes these. -/
def depthBelow : List Descriptor → Nat
  | [] => 0
  | child :: rest => max (child.depth + 1) (depthBelow rest)

end

/-- **Explicit selections** of a shape: a level lists fields and, behind relations, explicit
selections of the shapes there. No name is listed twice, all of them are plain words, and no
level behind a relation is empty. -/
inductive Explicit : Shape → Descriptor → Prop where
  /-- One level; `sub` tells the shapes behind the relations of the shape. -/
  | level {shape : Shape} {attributes : List String} {children : List (String × Descriptor)}
      {sub : String → Shape}
      (fields : ∀ name ∈ attributes, (shape.marker? name).isSome ∧ PlainWord name.toList)
      (fieldsDistinct : attributes.Nodup)
      (relations : ∀ child ∈ children,
        shape.behind? child.1 = some (sub child.1) ∧ PlainWord child.1.toList)
      (relationsDistinct : (Entries.keys children).Nodup)
      (nonempty : ∀ child ∈ children, child.2.isEmpty = false)
      (behind : ∀ child ∈ children, Explicit (sub child.1) child.2) :
      Explicit shape (listed attributes children)

/-! ### The text of a level -/

variable {attributes : List String} {children : List (String × Descriptor)}

@[simp] lemma rendering_under (descriptor : Descriptor) (name : String) :
    (descriptor.under name).rendering = descriptor.rendering := by
  cases descriptor
  rfl

@[simp] lemma depth_under (descriptor : Descriptor) (name : String) :
    (descriptor.under name).depth = descriptor.depth := by
  cases descriptor
  rfl

lemma rendering_listed (attributes : List String) (children : List (String × Descriptor)) :
    (listed attributes children).rendering
      = join ',' (attributes.map String.toList ++
          children.map fun child => relationText child.1 child.2.rendering) := by
  have hmentions : mentions (children.map fun child => child.2.under child.1)
      = children.map fun child => relationText child.1 child.2.rendering := by
    induction children with
    | nil => rfl
    | cons child children ih =>
        rw [List.map_cons, mentions, ih, rendering_under]
        rfl
  rw [listed, rendering, hmentions]

/-- A level behind a relation is nested less deeply. -/
lemma depth_lt_of_mem (attributes : List String) {child : String × Descriptor}
    (h : child ∈ children) :
    child.2.depth < (listed attributes children).depth := by
  have hbelow : child.2.depth < depthBelow (children.map fun child => child.2.under child.1) := by
    induction children with
    | nil => cases h
    | cons first children ih =>
        rw [List.map_cons, depthBelow, depth_under]
        rcases List.mem_cons.mp h with rfl | h
        · omega
        · have := ih h
          omega
  exact hbelow

/-- The text of an explicit selection is balanced, since every name in it is. -/
lemma Explicit.balanced {shape : Shape} {descriptor : Descriptor}
    (h : Explicit shape descriptor) : Balanced descriptor.rendering := by
  induction h with
  | @level shape attributes children sub fields _ relations _ _ _ ih =>
      rw [rendering_listed]
      refine Balanced.join fun part hpart => ?_
      rcases List.mem_append.mp hpart with hpart | hpart
      · obtain ⟨name, hname, rfl⟩ := List.mem_map.mp hpart
        exact (fields name hname).2.balanced
      · obtain ⟨child, hchild, rfl⟩ := List.mem_map.mp hpart
        exact (relations child hchild).2.balanced.append (ih child hchild).parenthesized

/-! ### Reading it back -/

/-- The tokens in the text of a descriptor, one an attribute and one an association. -/
def renderedTokens (descriptor : Descriptor) : List Token :=
  descriptor.attributes.map .field ++ descriptor.includes.map fun child =>
    .relation (child.association.getD "") (bodyText child.rendering)

lemma renderedTokens_listed (attributes : List String) (children : List (String × Descriptor)) :
    (listed attributes children).renderedTokens = attributes.map .field ++
      children.map fun child => .relation child.1 (bodyText child.2.rendering) := by
  rw [renderedTokens, listed]
  simp only [List.map_map, Function.comp_def, rendering_under]
  rfl

/-- **Reading the text** of an explicit selection gives its tokens. -/
lemma Explicit.tokens_rendering {shape : Shape} {descriptor : Descriptor}
    (h : Explicit shape descriptor) :
    tokens descriptor.rendering = descriptor.renderedTokens := by
  obtain @⟨shape, attributes, children, sub, fields, -, relations, -, -, behind⟩ := h
  have hclosed : ∀ part ∈ attributes.map String.toList ++
      children.map (fun child => relationText child.1 child.2.rendering), Closed part := by
    intro part hpart
    rcases List.mem_append.mp hpart with hpart | hpart
    · obtain ⟨name, hname, rfl⟩ := List.mem_map.mp hpart
      exact (fields name hname).2.closed
    · obtain ⟨child, hmem, rfl⟩ := List.mem_map.mp hpart
      have hplain := (relations child hmem).2
      exact closed_relation hplain.comma hplain.opening (behind child hmem).balanced
  rw [rendering_listed, (tokens_join hclosed).1, List.flatMap_append, List.flatMap_map,
    List.flatMap_map, renderedTokens_listed, List.map_eq_flatMap, List.map_eq_flatMap]
  congr 1
  · refine List.flatMap_congr fun name hname => ?_
    rw [(fields name hname).2.tokens_eq, String.ofList_toList]
  · refine List.flatMap_congr fun child hmem => ?_
    have hplain := (relations child hmem).2
    exact tokens_relationText hplain.trim_eq hplain.comma hplain.opening
      (behind child hmem).balanced

/-- A level that is not empty has a text that is not blank, so it is not read as `all`. -/
lemma Explicit.not_isBlank {shape : Shape} {descriptor : Descriptor}
    (h : Explicit shape descriptor) (hne : descriptor.isEmpty = false) :
    ¬ IsBlank descriptor.rendering := by
  intro hblank
  have htokens : descriptor.renderedTokens = [] := by
    rw [← h.tokens_rendering, ← tokens_trim, hblank.trim_eq_nil]
    rfl
  obtain ⟨hattributes, hincludes⟩ := List.append_eq_nil_iff.mp htokens
  obtain @⟨shape, attributes, children⟩ := h
  obtain rfl : attributes = [] := List.map_eq_nil_iff.mp hattributes
  obtain rfl : children = [] := List.map_eq_nil_iff.mp (List.map_eq_nil_iff.mp hincludes)
  cases hne

lemma namesOnly_renderedTokens (descriptor : Descriptor) :
    NamesOnly descriptor.renderedTokens := by
  intro token htoken
  rcases List.mem_append.mp htoken with htoken | htoken
  · obtain ⟨name, -, rfl⟩ := List.mem_map.mp htoken
    exact Or.inl ⟨name, rfl⟩
  · obtain ⟨child, -, rfl⟩ := List.mem_map.mp htoken
    exact Or.inr ⟨_, _, rfl⟩

lemma filterMap_relationName?_listed (attributes : List String)
    (children : List (String × Descriptor)) :
    (listed attributes children).renderedTokens.filterMap relationName?
      = Entries.keys children := by
  have hfields : (attributes.map Token.field).filterMap relationName? = [] :=
    List.filterMap_eq_nil_iff.mpr fun token htoken => by
      obtain ⟨name, -, rfl⟩ := List.mem_map.mp htoken
      rfl
  rw [renderedTokens_listed, List.filterMap_append, hfields, List.nil_append, List.filterMap_map,
    Entries.keys, ← List.filterMap_eq_map]
  rfl

lemma relationNames_listed (attributes : List String) (hn : (Entries.keys children).Nodup) :
    relationNames (listed attributes children).renderedTokens = Entries.keys children := by
  rw [relationNames, filterMap_relationName?_listed, distinctNames_of_nodup hn]

lemma filterMap_wanted?_listed {place : Place} (h : ∀ name ∈ attributes, place.hasField name)
    (children : List (String × Descriptor)) :
    (listed attributes children).renderedTokens.filterMap place.wanted? = attributes := by
  have hrelations : (children.map fun child =>
      Token.relation child.1 (bodyText child.2.rendering)).filterMap place.wanted? = [] :=
    List.filterMap_eq_nil_iff.mpr fun token htoken => by
      obtain ⟨child, -, rfl⟩ := List.mem_map.mp htoken
      rfl
  rw [renderedTokens_listed, List.filterMap_append, hrelations, List.append_nil,
    List.filterMap_map]
  conv_rhs => rw [← List.filterMap_some (l := attributes)]
  exact List.filterMap_congr fun name hname => if_pos (h name hname)

/-- The tokens that the text of a level has for a relation are those of the level there. -/
lemma bodyTokens_listed {shape : Shape} {child : String × Descriptor}
    (hn : (Entries.keys children).Nodup) (hmem : child ∈ children)
    (hchild : Explicit shape child.2) (hne : child.2.isEmpty = false) :
    bodyTokens child.1 (listed attributes children).renderedTokens
      = child.2.renderedTokens := by
  have hbody : bodies child.1 (listed attributes children).renderedTokens
      = [bodyText child.2.rendering] := by
    refine bodies_eq_singleton (filterMap_relationName?_listed attributes children ▸ hn) ?_
    rw [renderedTokens_listed]
    exact List.mem_append_right _ (List.mem_map_of_mem hmem)
  rw [bodyTokens, hbody, List.flatMap_singleton, tokens_bodyText,
    if_neg (hchild.not_isBlank hne), hchild.tokens_rendering]

/-- Without room for levels nothing is listed behind relations. -/
lemma eq_nil_of_depth_le_zero (h : (listed attributes children).depth ≤ 0) : children = [] := by
  refine List.eq_nil_iff_forall_not_mem.mpr fun child hmem => ?_
  have := depth_lt_of_mem attributes hmem
  omega

end Descriptor

/-! ### What the text selects -/

namespace Place

variable {shape : Shape} {name : String}

lemma hasField_of_marker? (hname : name ≠ "") (h : (shape.marker? name).isSome)
    (path : String) : Place.hasField ⟨some shape, none, path⟩ name = true := by
  simp [hasField, shapeHasField, schemaHasField, hname, h]

/-- Where names are asked for and nothing is filtered on, a level holds the names. -/
lemma level_names (options : CompileOptions) {query : Query} (hquery : query.filters = [])
    (place : Place) (attributes : List String) (relations : List RelationRequest)
    (includes : List Descriptor) :
    place.level options query { attributes, relations } includes = { attributes, includes } := by
  have hpromoted : place.promoted query attributes = [] := by
    refine List.filterMap_eq_nil_iff.mpr fun name _ => ?_
    rw [Query.filter?, hquery]
    rfl
  have hlisted : place.attributes? options.includeKeys { attributes, relations }
      = some attributes := rfl
  simp only [level, hlisted, filterable, hpromoted]
  rfl

end Place

namespace Descriptor.Explicit

variable {shape : Shape} {descriptor : Descriptor}

/-- **The text of an explicit selection selects it**, as long as there is room for its
levels. -/
lemma compiled_eq (h : Explicit shape descriptor) (options : CompileOptions) {query : Query}
    (hquery : query.filters = []) {room : Nat} (hroom : descriptor.depth ≤ room)
    (path : String) :
    Place.compiled options query room ⟨some shape, none, path⟩ descriptor.renderedTokens
      = descriptor := by
  induction h generalizing room path with
  | @level shape attributes children sub fields fieldsDistinct relations relationsDistinct
      nonempty behind ih =>
      have hfields : ∀ name ∈ attributes, Place.hasField ⟨some shape, none, path⟩ name :=
        fun name hname => Place.hasField_of_marker? (fields name hname).2.ne_empty
          (fields name hname).1 path
      have hincludes : (Place.compiled options query room ⟨some shape, none, path⟩
            (listed attributes children).renderedTokens).includes
          = children.map fun child => child.2.under child.1 := by
        cases room with
        | zero =>
            -- the limit leaves no room, and the level needs none
            cases eq_nil_of_depth_le_zero hroom
            rfl
        | succ room =>
            rw [Place.includes_compiled, relationNames_listed attributes relationsDistinct,
              Place.unnamed, if_neg (namesOnly_renderedTokens _).all_notMem, List.filterMap_nil,
              List.append_nil, Entries.keys, List.filterMap_map, ← List.filterMap_eq_map]
            refine List.filterMap_congr fun child hmem => ?_
            obtain ⟨hsub, hplain⟩ := relations child hmem
            have hdepth := depth_lt_of_mem attributes hmem
            rw [Function.comp_apply, Function.comp_apply, Place.below,
              Place.enter?_of_behind? hplain.ne_empty hsub, Option.map_some,
              bodyTokens_listed relationsDistinct hmem (behind child hmem)
                (nonempty child hmem),
              ih child hmem (by omega)]
      rw [Place.compiled_eq_level, hincludes, (namesOnly_renderedTokens _).asked_eq,
        filterMap_wanted?_listed hfields, distinctNames_of_nodup fieldsDistinct,
        Place.level_names options hquery]
      rfl

/-- **There is nothing to note** about the text of an explicit selection, as long as there is
room for its levels. -/
lemma quiet (h : Explicit shape descriptor) (keysMode : Bool) {room : Nat}
    (hroom : descriptor.depth ≤ room) (path : String) :
    Place.Quiet keysMode room ⟨some shape, none, path⟩ descriptor.renderedTokens := by
  induction h generalizing room path with
  | @level shape attributes children sub fields fieldsDistinct relations relationsDistinct
      nonempty behind ih =>
      have hscan : ∀ token ∈ (listed attributes children).renderedTokens,
          Place.tokenCause? ⟨some shape, none, path⟩ keysMode token = none := by
        intro token htoken
        rw [renderedTokens_listed, List.mem_append, List.mem_map, List.mem_map] at htoken
        rcases htoken with ⟨name, hname, rfl⟩ | ⟨child, -, rfl⟩
        · obtain ⟨hmarker, hplain⟩ := fields name hname
          exact if_pos (Place.hasField_of_marker? hplain.ne_empty hmarker path)
        · rfl
      have hunnamed : Place.unnamed ⟨some shape, none, path⟩
          (listed attributes children).renderedTokens = [] :=
        if_neg (namesOnly_renderedTokens _).all_notMem
      cases room with
      | zero =>
          refine ⟨hscan, ?_, hunnamed⟩
          rw [relationNames_listed attributes relationsDistinct, eq_nil_of_depth_le_zero hroom]
          rfl
      | succ room =>
          refine ⟨hscan, fun name hname => ?_, fun name hname => ?_⟩
          · rw [relationNames_listed attributes relationsDistinct] at hname
            obtain ⟨child, hmem, rfl⟩ := List.mem_map.mp hname
            obtain ⟨hsub, hplain⟩ := relations child hmem
            have hdepth := depth_lt_of_mem attributes hmem
            refine ⟨_, Place.enter?_of_behind? hplain.ne_empty hsub path, ?_⟩
            rw [bodyTokens_listed relationsDistinct hmem (behind child hmem)
              (nonempty child hmem)]
            exact ih child hmem (by omega) _
          · rw [hunnamed] at hname
            cases hname

end Descriptor.Explicit

/-- **Explicit selections are read back**: the text of one selects it, against the shape and
with as much nesting as it has, and there is nothing to note about it. -/
theorem compile_rendering {shape : Shape} {descriptor : Descriptor}
    (h : descriptor.Explicit shape) {options : CompileOptions}
    (hdepth : descriptor.depth ≤ options.maxDepth) :
    Compiler.compile ⟨some shape, none, options⟩ { fields := some (.ofList descriptor.rendering) }
        = descriptor ∧
      Compiler.notes ⟨some shape, none, options⟩ { fields := some (.ofList descriptor.rendering) }
        = [] := by
  have htokens : Compiler.tokens ⟨some shape, none, options⟩
      { fields := some (.ofList descriptor.rendering) } = descriptor.renderedTokens := by
    rw [Compiler.tokens, Compiler.selection, Option.getD_some, String.toList_ofList,
      h.tokens_rendering]
  constructor
  · rw [Compiler.compile_eq, htokens, Compiler.root, h.compiled_eq options rfl hdepth]
    cases h
    rfl
  · refine Compiler.notes_eq_nil ?_ ?_
    · rw [Compiler.selection, Option.getD_some, String.toList_ofList]
      exact h.balanced
    · rw [htokens]
      exact h.quiet options.includeKeys hdepth ""

/-- Titles with their authors and copies; every name has a letter outside ASCII. -/
def catalogue : Shape :=
  [("título", .field none),
    ("autoría", .one [("índice", .field (some .primary)),
      ("país", .one [("código", .field (some .primary)), ("océano", .field none)])]),
    ("ejemplarés", .many [("código", .field (some .primary)), ("año", .field none)])]

/-- A page of the catalogue, with relations and fields in an order of their own. -/
def cataloguePage : Descriptor :=
  .listed ["título"]
    [("ejemplarés", .listed ["año", "código"] []),
      ("autoría", .listed [] [("país", .listed ["código"] [])])]

/-- Keys mode adds nothing to the page, and there is just as much nesting as it needs. -/
theorem compile_rendering_catalogue :
    String.ofList cataloguePage.rendering
        = "título,ejemplarés(año,código),autoría(país(código))" ∧
      cataloguePage.depth = 2 ∧ cataloguePage.Explicit catalogue ∧
      Compiler.compile ⟨some catalogue, none, { includeKeys := true, maxDepth := 2 }⟩
          { fields := some (.ofList cataloguePage.rendering) } = cataloguePage ∧
      Compiler.notes ⟨some catalogue, none, { includeKeys := true, maxDepth := 2 }⟩
          { fields := some (.ofList cataloguePage.rendering) } = [] := by
  have hleaf : ∀ (shape : Shape) (attributes : List String),
      (∀ name ∈ attributes, (shape.marker? name).isSome ∧ PlainWord name.toList) →
      attributes.Nodup → (Descriptor.listed attributes []).Explicit shape :=
    fun shape attributes fields distinct =>
      @Descriptor.Explicit.level shape attributes [] (fun _ => []) fields distinct
        (fun _ h => nomatch h) List.nodup_nil (fun _ h => nomatch h) (fun _ h => nomatch h)
  have hauthor : (Descriptor.listed [] [("país", .listed ["código"] [])]).Explicit
      ((catalogue.behind? "autoría").getD []) := by
    refine @Descriptor.Explicit.level _ _ _
      (fun _ => [("código", .field (some .primary)), ("océano", .field none)])
      (by decide) (by decide) ?_ (by decide) (by decide) ?_
    · exact List.forall_mem_singleton.mpr ⟨rfl, by decide⟩
    · exact List.forall_mem_singleton.mpr (hleaf _ _ (by decide) (by decide))
  have hpage : cataloguePage.Explicit catalogue := by
    refine @Descriptor.Explicit.level _ _ _ (fun name => (catalogue.behind? name).getD [])
      (by decide) (by decide) ?_ (by decide) (by decide) ?_
    · exact List.forall_mem_cons.mpr ⟨⟨rfl, by decide⟩,
        List.forall_mem_singleton.mpr ⟨rfl, by decide⟩⟩
    · exact List.forall_mem_cons.mpr ⟨hleaf _ _ (by decide) (by decide),
        List.forall_mem_singleton.mpr hauthor⟩
  exact ⟨by decide, by decide, hpage, compile_rendering hpage (by decide)⟩

end FieldSelection
