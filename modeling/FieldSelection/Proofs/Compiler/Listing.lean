import FieldSelection.Proofs.Level.Descent
import FieldSelection.Proofs.Shape.Distinct

/-!
Everything is the list of everything.

The selection `all` walks the shape, while a selection that lists every field and
every relation is read from its text. Both select the same.

* `Shape.listing`: the text that lists a shape, level by level.
* `Shape.PlainNames`: the names of a shape are words that can be read back.
* `tokens_listing`: reading a listing gives one token an entry.
* `compiled_listing`: the tokens of a listing select what `all` selects, by induction
  on the levels that may follow.
* `compile_listing`: so the two selections have one descriptor.
-/

namespace FieldSelection

open FieldSelection.Selection FieldSelection.Text

/-! ### Listing a shape -/

mutual

/-- How a listing mentions an entry: a field by its name, and a relation with the
listing of the shape behind it. -/
def Node.mention (name : String) : Node → List Char
  | .field _ => name.toList
  | .one shape | .many shape =>
    name.toList ++ '(' :: (join ',' (Shape.mentions shape) ++ [')'])

/-- How a listing mentions the entries of a shape, in order. -/
def Shape.mentions : List (String × Node) → List (List Char)
  | [] => []
  | (name, node) :: shape => node.mention name :: Shape.mentions shape

end

/-- The text that lists everything in a shape. -/
def Shape.listing (shape : Shape) : String :=
  .ofList (join ',' (Shape.mentions shape))

lemma Shape.mentions_eq_map (shape : Shape) :
    Shape.mentions shape = shape.map fun entry => entry.2.mention entry.1 := by
  induction shape with
  | nil => rfl
  | cons entry shape ih => rw [Shape.mentions, List.map_cons, ih]

lemma Node.mention_of_shape? {name : String} {node : Node} {sub : Shape}
    (h : node.shape? = some sub) :
    node.mention name = name.toList ++ '(' :: (sub.listing.toList ++ [')']) := by
  cases node with
  | field key => cases h
  | one shape =>
      cases h
      rw [mention, Shape.listing, String.toList_ofList]
  | many shape =>
      cases h
      rw [mention, Shape.listing, String.toList_ofList]

/-! ### Reading a listing -/

/-- The names of all levels of the shape are plain words. -/
def Shape.PlainNames (shape : Shape) : Prop :=
  shape.Everywhere fun level => ∀ name ∈ Entries.keys level, PlainWord name.toList

instance (shape : Shape) : Decidable shape.PlainNames :=
  inferInstanceAs (Decidable (shape.Everywhere _))

lemma Shape.PlainNames.plain {shape : Shape} (h : shape.PlainNames) {name : String}
    {node : Node} (hm : (name, node) ∈ shape) : PlainWord name.toList :=
  h.here name (Entries.mem_keys.mpr ⟨node, hm⟩)

lemma Shape.PlainNames.ne_empty {shape : Shape} (h : shape.PlainNames) :
    ∀ name ∈ Entries.keys shape, name ≠ "" :=
  fun name hname => (h.here name hname).ne_empty

/-- The listing of a shape is balanced, since every name in it is. -/
lemma balanced_listing {shape : Shape} (h : shape.PlainNames) :
    Balanced shape.listing.toList := by
  induction h with
  | @intro shape here behind ih =>
      rw [Shape.listing, String.toList_ofList, Shape.mentions_eq_map]
      refine Balanced.join fun part hpart => ?_
      obtain ⟨⟨name, node⟩, hm, rfl⟩ := List.mem_map.mp hpart
      have hname := (here name (Entries.mem_keys.mpr ⟨node, hm⟩)).balanced
      cases hs : node.shape? with
      | none =>
          cases node with
          | field key => exact hname
          | one sub => cases hs
          | many sub => cases hs
      | some sub =>
          rw [Node.mention_of_shape? hs]
          exact hname.append (ih _ hm sub hs).parenthesized

/-- The token that a listing has for an entry. -/
def Node.token (name : String) (node : Node) : Token :=
  match node.shape? with
  | none => .field name
  | some sub => .relation name (bodyText sub.listing.toList)

/-- The tokens of a listing, one an entry. -/
def Shape.tokens (shape : Shape) : List Token :=
  shape.map fun entry => entry.2.token entry.1

lemma tokens_mention {name : String} {node : Node} (hname : PlainWord name.toList)
    (hsub : ∀ sub, node.shape? = some sub → Shape.PlainNames sub) :
    tokens (node.mention name) = [node.token name] ∧ Closed (node.mention name) := by
  rw [Node.token]
  cases hs : node.shape? with
  | none =>
      cases node with
      | field key => exact ⟨by simp [Node.mention, hname.tokens_eq], hname.closed⟩
      | one sub => cases hs
      | many sub => cases hs
  | some sub =>
      have hbalanced := balanced_listing (hsub sub hs)
      rw [Node.mention_of_shape? hs, tokens_relation hname.comma hname.opening hbalanced,
        hname.trim_eq, String.ofList_toList]
      exact ⟨rfl, closed_relation hname.comma hname.opening hbalanced⟩

/-- **Reading a listing** gives one token an entry, in order. -/
lemma tokens_listing {shape : Shape} (h : shape.PlainNames) :
    tokens shape.listing.toList = shape.tokens := by
  have hmention : ∀ entry ∈ shape, tokens (entry.2.mention entry.1) = [entry.2.token entry.1] ∧
      Closed (entry.2.mention entry.1) := by
    rintro ⟨name, node⟩ hm
    exact tokens_mention (h.plain hm) fun sub hs => h.behind hm hs
  have hclosed : ∀ part ∈ Shape.mentions shape, Closed part := by
    intro part hpart
    rw [Shape.mentions_eq_map] at hpart
    obtain ⟨entry, hm, rfl⟩ := List.mem_map.mp hpart
    exact (hmention entry hm).2
  rw [Shape.listing, String.toList_ofList, (tokens_join hclosed).1, Shape.mentions_eq_map,
    List.flatMap_map, Shape.tokens, List.map_eq_flatMap]
  exact List.flatMap_congr fun entry hm => (hmention entry hm).1

/-! ### What a listing asks for -/

lemma Node.token_eq_field {name : String} {node : Node} (h : node.shape? = none) :
    node.token name = .field name := by
  rw [token, h]

lemma Node.token_eq_relation {name : String} {node : Node} {sub : Shape}
    (h : node.shape? = some sub) :
    node.token name = .relation name (bodyText sub.listing.toList) := by
  rw [token, h]

lemma Node.shape?_isSome (node : Node) : node.shape?.isSome = node.isRelation := by
  cases node <;> rfl

namespace Shape

variable {shape : Shape}

/-- A listing names the relations of the shape. -/
lemma filterMap_relationName?_tokens (shape : Shape) :
    shape.tokens.filterMap relationName? = Entries.keys shape.relations := by
  rw [tokens, List.filterMap_map, relations, Entries.keys, ← List.filterMap_eq_map,
    List.filterMap_filter]
  refine List.filterMap_congr fun entry _ => ?_
  have hsome := Node.shape?_isSome entry.2
  cases hs : entry.2.shape? with
  | none =>
      rw [hs] at hsome
      simp [Node.token_eq_field hs, relationName?, ← hsome]
  | some sub =>
      rw [hs] at hsome
      simp [Node.token_eq_relation hs, relationName?, ← hsome]

lemma relationNames_tokens (hn : (Entries.keys shape).Nodup) :
    relationNames shape.tokens = Entries.keys shape.relations := by
  rw [relationNames, filterMap_relationName?_tokens,
    distinctNames_of_nodup (nodup_keys_relations hn)]

/-- The body that a listing gives to a relation is the listing of the shape behind
it. -/
lemma bodies_tokens (hn : (Entries.keys shape).Nodup) {name : String} {node : Node}
    {sub : Shape} (hm : (name, node) ∈ shape) (hs : node.shape? = some sub) :
    bodies name shape.tokens = [bodyText sub.listing.toList] := by
  refine bodies_eq_singleton ?_ (List.mem_map.mpr ⟨_, hm, Node.token_eq_relation hs⟩)
  rw [filterMap_relationName?_tokens]
  exact nodup_keys_relations hn

/-- The tokens of that body; an empty listing reads as `all`. -/
lemma bodyTokens_tokens (hn : (Entries.keys shape).Nodup) {name : String} {node : Node}
    {sub : Shape} (hm : (name, node) ∈ shape) (hs : node.shape? = some sub) :
    bodyTokens name shape.tokens
      = if IsBlank sub.listing.toList then [.all] else Selection.tokens sub.listing.toList := by
  rw [bodyTokens, bodies_tokens hn hm hs, List.flatMap_singleton, tokens_bodyText]

/-- The fields that a listing asks for are those of the shape that the place knows. -/
lemma filterMap_wanted?_tokens (schema : Option ModelView) (path : String)
    (hn : (Entries.keys shape).Nodup) (hne : ∀ name ∈ Entries.keys shape, name ≠ "") :
    shape.tokens.filterMap (Place.wanted? ⟨some shape, schema, path⟩)
      = (Entries.keys shape.fields).filter
          (Place.schemaHasField ⟨some shape, schema, path⟩) := by
  rw [tokens, List.filterMap_map, keys_fields, Entries.keys, List.filter_map,
    ← List.filterMap_eq_map, List.filterMap_filter, List.filterMap_filter]
  refine List.filterMap_congr fun entry hm => ?_
  obtain ⟨name, node⟩ := entry
  cases node with
  | field key =>
      have hname := hne name (Entries.mem_keys.mpr ⟨_, hm⟩)
      have hmarker := (marker?_eq_some_iff hn).mpr hm
      have hfield : Place.hasField ⟨some shape, schema, path⟩ name
          = Place.schemaHasField ⟨some shape, schema, path⟩ name := by
        simp [Place.hasField, Place.shapeHasField, hname, hmarker]
      simp [Node.token, Node.shape?, Place.wanted?, hfield, Node.isField]
  | one sub => rfl
  | many sub => rfl

/-- A listing has no tokens but those of fields and relations. -/
lemma namesOnly_tokens (shape : Shape) : NamesOnly shape.tokens := by
  intro token h
  obtain ⟨⟨name, node⟩, -, rfl⟩ := List.mem_map.mp h
  cases hs : node.shape? with
  | none => exact Or.inl ⟨name, Node.token_eq_field hs⟩
  | some sub => exact Or.inr ⟨name, _, Node.token_eq_relation hs⟩

end Shape

/-! ### Listing everything and asking for everything -/

section Level

variable (options : CompileOptions) (query : Query) {shape : Shape}
  (schema : Option ModelView) (path : String)

/-- A listing asks for the fields of the shape that the model knows, and for what it has
bodies for. -/
lemma asked_listing (keysMode : Bool) (hn : (Entries.keys shape).Nodup)
    (hne : ∀ name ∈ Entries.keys shape, name ≠ "") :
    Place.asked ⟨some shape, schema, path⟩ keysMode shape.tokens =
      { attributes := (Entries.keys shape.fields).filter
          (Place.schemaHasField ⟨some shape, schema, path⟩)
        relations := (relationNames shape.tokens).map fun name =>
          ⟨name, (bodies name shape.tokens).map (⟨·, 0⟩)⟩ } := by
  have hfields : (Entries.keys shape.fields).Nodup := by
    rw [Shape.keys_fields]
    exact hn.sublist (List.filter_sublist.map _)
  rw [(Shape.namesOnly_tokens shape).asked_eq, Shape.filterMap_wanted?_tokens schema path hn hne,
    distinctNames_of_nodup (hfields.filter _)]

/-- A level lists its fields in the order of the shape, whether they were listed or
everything was asked for. -/
lemma level_listing (hn : (Entries.keys shape).Nodup)
    (hne : ∀ name ∈ Entries.keys shape, name ≠ "") (includes : List Descriptor) :
    Place.level options query ⟨some shape, schema, path⟩
        (Place.asked ⟨some shape, schema, path⟩ options.includeKeys shape.tokens) includes
      = Place.level options query ⟨some shape, schema, path⟩
        (Place.asked ⟨some shape, schema, path⟩ options.includeKeys [.all]) includes := by
  have heverything : Place.asked ⟨some shape, schema, path⟩ options.includeKeys [.all]
      = .everything := rfl
  have hfilled : Place.attributes? ⟨some shape, schema, path⟩ options.includeKeys .everything
      = some ((Entries.keys shape.fields).filter
          (Place.schemaHasField ⟨some shape, schema, path⟩)) := by
    simp [Place.attributes?, Request.isComplement, Request.everything, Place.fields?]
  rw [asked_listing schema path options.includeKeys hn hne, heverything]
  simp only [Place.level, hfilled]
  rfl

/-- Behind a relation of a shape is a place with the shape behind it. -/
lemma enter?_of_mem (hn : (Entries.keys shape).Nodup) {name : String} {node : Node}
    {sub : Shape} (hm : (name, node) ∈ shape) (hs : node.shape? = some sub) {next : Place}
    (hnext : Place.enter? ⟨some shape, schema, path⟩ name = some next) :
    next.shape = some sub := by
  have hrelation : shape.relation? name = some node :=
    (Shape.relation?_eq_some_iff hn).mpr ⟨hm, by rw [← node.shape?_isSome, hs]; rfl⟩
  have hshape : Place.enterShape? ⟨some shape, schema, path⟩ name = some (some sub) := by
    simp [Place.enterShape?, hrelation, hs]
  rw [Place.enter?, hshape] at hnext
  split at hnext
  · cases hnext
  · split at hnext
    · next heq _ =>
      cases heq
      cases hnext
      rfl
    · cases hnext

/-- **The tokens of a listing select what `all` selects.** The bodies of its relations
are listings again, and an empty one reads as `all`. -/
lemma compiled_listing (hd : shape.Distinct) (hp : shape.PlainNames) (room : Nat) :
    Place.compiled options query room ⟨some shape, schema, path⟩
        (tokens shape.listing.toList)
      = Place.compiled options query room ⟨some shape, schema, path⟩ [.all] := by
  induction room generalizing shape schema path with
  | zero =>
      rw [tokens_listing hp, Place.compiled_zero, Place.compiled_zero,
        level_listing options query schema path hd.here hp.ne_empty]
  | succ room ih =>
      have hbelow : ∀ name ∈ Entries.keys shape.relations,
          Place.below options query room ⟨some shape, schema, path⟩ name
              (bodyTokens name shape.tokens)
            = Place.below options query room ⟨some shape, schema, path⟩ name [.all] := by
        intro name hname
        obtain ⟨node, hm, hrelation⟩ := Shape.mem_keys_relations.mp hname
        obtain ⟨sub, hs⟩ := Option.isSome_iff_exists.mp (node.shape?_isSome.trans hrelation)
        rw [Place.below, Place.below, Shape.bodyTokens_tokens hd.here hm hs]
        split
        · rfl
        · cases hnext : Place.enter? ⟨some shape, schema, path⟩ name with
          | none => rfl
          | some next =>
              obtain ⟨nextShape, nextSchema, nextPath⟩ := next
              cases enter?_of_mem schema path hd.here hm hs hnext
              rw [Option.map_some, Option.map_some,
                ih nextSchema nextPath (hd.behind hm hs) (hp.behind hm hs)]
      have hlisted : Place.unnamed ⟨some shape, schema, path⟩ shape.tokens = [] :=
        if_neg shape.namesOnly_tokens.all_notMem
      rw [tokens_listing hp, Place.compiled_succ, Place.compiled_succ,
        level_listing options query schema path hd.here hp.ne_empty,
        Shape.relationNames_tokens hd.here, hlisted, Place.unnamed_all,
        List.filterMap_congr hbelow, List.filterMap_nil, List.append_nil]
      rfl

end Level

/-- **Everything is the list of everything**: against a shape, the selection `all` and
the selection that lists every field and every relation have one descriptor. -/
theorem compile_listing {shape : Shape} (hd : shape.Distinct) (hp : shape.PlainNames)
    (schema : Option ModelView) (options : CompileOptions) (query : Query) :
    Compiler.compile ⟨some shape, schema, options⟩ { query with fields := some "all" }
      = Compiler.compile ⟨some shape, schema, options⟩
          { query with fields := some shape.listing } := by
  have hall : Compiler.tokens ⟨some shape, schema, options⟩ { query with fields := some "all" }
      = [.all] := by
    have htext : isAll (trim "all".toList) = true := by decide
    exact tokens_of_isAll htext
  refine Compiler.compile_fields _ query ?_
  rw [hall]
  exact (compiled_listing options query schema "" hd hp options.maxDepth).symm

/-- Orders with customers and lines, two levels deep, and something empty. -/
def orderShape : Shape :=
  [("id", .field (some .primary)), ("customer", .one [("name", .field none),
      ("orders", .many [("id", .field none)])]),
    ("placed", .field none), ("lines", .many [("article", .one []), ("count", .field none)])]

/-- What lists everything in an order, with as much nesting as is allowed. -/
theorem compile_listing_order :
    orderShape.listing
        = "id,customer(name,orders(id)),placed,lines(article(),count)" ∧
      Compiler.compile ⟨some orderShape, none, { maxDepth := 1 }⟩
          { fields := some "all", filters := [("customer.name", .string "x")] }
        = Compiler.compile ⟨some orderShape, none, { maxDepth := 1 }⟩
          { fields := some orderShape.listing, filters := [("customer.name", .string "x")] } :=
  ⟨by decide, compile_listing (by decide) (by decide) none { maxDepth := 1 }
    { filters := [("customer.name", .string "x")] }⟩

end FieldSelection
