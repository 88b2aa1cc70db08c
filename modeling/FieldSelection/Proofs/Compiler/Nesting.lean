import FieldSelection.Proofs.Level.Path
import FieldSelection.Proofs.Level.Simulation

/-!
Nested selections are selections.

What a relation selects is what its body selects as the selection of a root, behind
the relation. Only the dotted paths of filters tell the two apart, and these are the
same up to the name of the relation in front.

* `Query.behind`: the query of a body, with the filters that are below its relation.
* `Place.Nests`: a place behind a relation, and the same place as a root;
  `nests_simulation` follows them down together.
* `compile_nested`: the descriptor of a relation is the one of its body.
-/

namespace FieldSelection

open FieldSelection.Selection FieldSelection.Text

/-! ### Filters below a path -/

namespace Entries

variable {α : Type} {f : String → Option String}

/-- Renaming the keys of entries, with no two keys to one name, renames them for
look-ups. -/
lemma lookup?_filterMap_key {old new : String} (hf : ∀ key, f key = some new ↔ key = old)
    (entries : List (String × α)) :
    lookup? new (entries.filterMap fun entry => (f entry.1).map (·, entry.2))
      = lookup? old entries := by
  induction entries with
  | nil => rfl
  | cons entry entries ih =>
      obtain ⟨key, value⟩ := entry
      rw [List.filterMap_cons, lookup?]
      by_cases hk : key = old
      · rw [(hf key).mpr hk, if_pos hk, Option.map_some, lookup?, if_pos rfl]
      · cases hkey : f key with
        | none => simpa [hkey, hk] using ih
        | some other =>
            have hne : other ≠ new := by
              rintro rfl
              exact hk ((hf key).mp hkey)
            simpa [hkey, hk, lookup?, hne] using ih

lemma keys_filterMap_key (entries : List (String × α)) :
    keys (entries.filterMap fun entry => (f entry.1).map (·, entry.2))
      = (keys entries).filterMap f := by
  rw [keys, keys, List.map_filterMap, List.filterMap_map]
  refine List.filterMap_congr fun entry _ => ?_
  rw [Option.map_map, Function.comp_apply]
  exact Option.map_id'

end Entries

/-- The filters of a query below a relation, without its name in front. -/
def Query.filtersBelow (query : Query) (name : String) : List (String × Json) :=
  query.filters.filterMap fun entry => (below? name entry.1).map (·, entry.2)

/-- The query that a body makes behind a relation: no order and no parameters, and a
blank body is `all`. -/
def Query.behind (query : Query) (name body : String) : Query where
  fields := some (if IsBlank body.toList then "all" else body)
  filters := query.filtersBelow name

/-- A filter of a body is the one of the whole query on the path with the relation in
front. -/
lemma Query.filter?_behind (query : Query) (name body path : String) :
    (query.behind name body).filter? path = query.filter? (joinPath name path) := by
  have hlookup : Entries.lookup? path (query.filtersBelow name)
      = Entries.lookup? (joinPath name path) query.filters :=
    Entries.lookup?_filterMap_key (fun key => below?_eq_some_iff) query.filters
  rw [filter?, filter?, behind, hlookup]

/-! ### Places behind a relation -/

/-- A place behind a relation of that name, and the same place without the relation in
its path. -/
def Place.Nests (name : String) (p q : Place) : Prop :=
  ∃ shape schema path path', p = ⟨shape, schema, path⟩ ∧ q = ⟨shape, schema, path'⟩ ∧
    ∀ rest, joinPath path rest = joinPath name (joinPath path' rest)

section Answers

variable {name path path' : String}
  (hpath : ∀ rest, joinPath path rest = joinPath name (joinPath path' rest))

include hpath

/-- The keys right below a path, read in two steps. -/
lemma childKey?_nests (key : String) :
    childKey? path key = (below? name key).bind (childKey? path') := by
  have hbelow : below? path key = (below? name key).bind (below? path') := by
    ext rest
    simp only [Option.bind_eq_some_iff, below?_eq_some_iff]
    constructor
    · rintro rfl
      exact ⟨_, hpath rest, rfl⟩
    · rintro ⟨mid, rfl, rfl⟩
      exact (hpath rest).symm
  rw [childKey?, hbelow]
  cases below? name key <;> rfl

lemma promoted_nests (shape : Option Shape) (schema : Option ModelView) (query : Query)
    (body : String) (attributes : Option (List String)) (excluded : List String) :
    Place.promoted ⟨shape, schema, path⟩ query
        (Place.filterable ⟨shape, schema, path⟩ query attributes excluded)
      = Place.promoted ⟨shape, schema, path'⟩ (query.behind name body)
        (Place.filterable ⟨shape, schema, path'⟩ (query.behind name body) attributes
          excluded) := by
  have hkeys : (Entries.keys (query.behind name body).filters).filterMap (childKey? path')
      = (Entries.keys query.filters).filterMap (childKey? path) := by
    have hbelow : Entries.keys (query.behind name body).filters
        = (Entries.keys query.filters).filterMap (below? name) :=
      Entries.keys_filterMap_key query.filters
    rw [hbelow, List.filterMap_filterMap]
    exact List.filterMap_congr fun key _ => (childKey?_nests hpath key).symm
  have hnames : Place.filterable ⟨shape, schema, path'⟩ (query.behind name body) attributes
        excluded
      = Place.filterable ⟨shape, schema, path⟩ query attributes excluded := by
    cases attributes with
    | some names => rfl
    | none => rw [Place.filterable, Place.filterable, hkeys]
  simp only [hnames, Place.promoted, query.filter?_behind, hpath]

lemma enter?_nests (shape : Option Shape) (schema : Option ModelView) (relation : String) :
    Option.Rel (Place.Nests name) (Place.enter? ⟨shape, schema, path⟩ relation)
      (Place.enter? ⟨shape, schema, path'⟩ relation) := by
  have hshape : Place.enterShape? ⟨shape, schema, path⟩ relation
      = Place.enterShape? ⟨shape, schema, path'⟩ relation := rfl
  have hschema : Place.enterSchema? ⟨shape, schema, path⟩ relation
      = Place.enterSchema? ⟨shape, schema, path'⟩ relation := rfl
  rw [Place.enter?, Place.enter?, hshape, hschema]
  split
  · exact .none
  · next hr =>
    split
    · refine .some ⟨_, _, _, _, rfl, rfl, fun rest => ?_⟩
      rw [joinPath_joinPath hr, joinPath_joinPath hr, hpath]
    · exact .none

end Answers

/-- A place behind a relation and the same place as a root answer alike, and lead to
such places again. -/
lemma nests_simulation (query : Query) (name body : String) :
    Place.Simulation query (query.behind name body) (Place.Nests name) where
  hasField := by
    rintro _ _ ⟨shape, schema, path, path', rfl, rfl, hpath⟩ other
    rfl
  noShape := by
    rintro _ _ ⟨shape, schema, path, path', rfl, rfl, hpath⟩
    rfl
  fields? := by
    rintro _ _ ⟨shape, schema, path, path', rfl, rfl, hpath⟩
    rfl
  isKey := by
    rintro _ _ ⟨shape, schema, path, path', rfl, rfl, hpath⟩ names other hnames hmem
    rfl
  promoted := by
    rintro _ _ ⟨shape, schema, path, path', rfl, rfl, hpath⟩ attributes excluded
    exact promoted_nests hpath shape schema query body attributes excluded
  relations := by
    rintro _ _ ⟨shape, schema, path, path', rfl, rfl, hpath⟩
    exact List.filter_congr fun other _ =>
      isSome_eq_of_rel (enter?_nests hpath shape schema other)
  enter? := by
    rintro _ _ ⟨shape, schema, path, path', rfl, rfl, hpath⟩ other
    exact enter?_nests hpath shape schema other

/-! ### Compiling a body -/

/-- The compiler behind a relation, which has one level less to spend. -/
def Compiler.behind? (compiler : Compiler) (name : String) : Option Compiler :=
  (compiler.root.enter? name).map fun next =>
    ⟨next.shape, next.schema,
      { compiler.options with maxDepth := compiler.options.maxDepth - 1 }⟩

/-- Behind a relation starts the place that the root leads to, without the path that
leads there. -/
lemma Compiler.behind?_eq_some {compiler inner : Compiler} {name : String}
    (h : compiler.behind? name = some inner) :
    ∃ next, compiler.root.enter? name = some next ∧ next.Nests name inner.root ∧
      inner.options = { compiler.options with maxDepth := compiler.options.maxDepth - 1 } := by
  obtain ⟨next, hnext, rfl⟩ := Option.map_eq_some_iff.mp h
  obtain ⟨hname, -, -, hpath⟩ := Place.enter?_eq_some_iff.mp hnext
  refine ⟨next, hnext, ⟨next.shape, next.schema, next.path, "", rfl, rfl, fun rest => ?_⟩, rfl⟩
  rw [hpath, joinPath_joinPath hname]
  rfl

/-- A body is compiled from its tokens; a blank one is `all`. -/
lemma Compiler.compile_behind (inner : Compiler) (query : Query) (name body : String) :
    inner.compile (query.behind name body)
      = inner.root.compiled inner.options (query.behind name body) inner.options.maxDepth
          (Selection.tokens (bodyText body.toList).toList) := by
  have htokens : inner.tokens (query.behind name body)
      = Selection.tokens (bodyText body.toList).toList := by
    rw [tokens_bodyText, Compiler.tokens, selection, Query.behind, Option.getD_some]
    split
    · rfl
    · rfl
  rw [compile_eq, htokens, ← Place.bare_compiled]
  rfl

/-- A relation with a body is one token. -/
lemma Compiler.tokens_nested (compiler : Compiler) (query : Query) {name body : String}
    (htrim : trim name.toList = name.toList) (hcomma : ',' ∉ name.toList)
    (hopen : '(' ∉ name.toList) (hbody : Balanced body.toList) :
    compiler.tokens { query with fields := some (name ++ "(" ++ body ++ ")") }
      = [.relation name (bodyText body.toList)] := by
  have htext : (name ++ "(" ++ body ++ ")").toList
      = name.toList ++ '(' :: (body.toList ++ [')']) := by
    simp
  rw [Compiler.tokens, selection, Option.getD_some, htext,
    tokens_relation hcomma hopen hbody, htrim, String.ofList_toList]

/-- One token of a relation lists that relation alone, if the place knows it. -/
lemma Place.includes_relation (options : CompileOptions) (query : Query) (place : Place)
    (room : Nat) (name body : String) :
    (place.compiled options query (room + 1) [.relation name body]).includes
      = (place.below options query room name (Selection.tokens body.toList)).toList := by
  have hnames : relationNames [.relation name body] = [name] := rfl
  have hbody : bodyTokens name [.relation name body] = Selection.tokens body.toList := by
    simp [bodyTokens, bodies, bodyOf?]
  rw [includes_compiled, hnames, unnamed, if_neg (by simp), List.filterMap_nil,
    List.append_nil, List.filterMap_cons, hbody]
  cases place.below options query room name (Selection.tokens body.toList) <;> rfl

/-- **Nested selections are selections**: a relation with a body selects that relation
alone, and behind it what the body selects as the selection of a root. -/
theorem compile_nested (compiler inner : Compiler) {name body : String}
    (hdepth : 1 ≤ compiler.options.maxDepth) (hinner : compiler.behind? name = some inner)
    (htrim : trim name.toList = name.toList) (hcomma : ',' ∉ name.toList)
    (hopen : '(' ∉ name.toList) (hbody : Balanced body.toList) (query : Query) :
    (compiler.compile { query with fields := some (name ++ "(" ++ body ++ ")") }).includes
      = [(inner.compile (query.behind name body)).under name] := by
  obtain ⟨next, hnext, hnests, hoptions⟩ := Compiler.behind?_eq_some hinner
  obtain ⟨room, hroom⟩ := Nat.exists_eq_add_of_le' hdepth
  have hinnerRoom : inner.options.maxDepth = room := by
    rw [hoptions, hroom]
    rfl
  have hbody' : next.compiled compiler.options query room
        (Selection.tokens (bodyText body.toList).toList)
      = inner.compile (query.behind name body) := by
    rw [Compiler.compile_behind, hinnerRoom]
    exact (nests_simulation query name body).compiled_eq compiler.options inner.options
      (by rw [hoptions]) room hnests _
  rw [Compiler.includes_compile, compiler.tokens_nested query htrim hcomma hopen hbody,
    Place.compiled_fields, hroom, Place.includes_relation, Place.below, hnext, Option.map_some,
    hbody', Option.toList_some]

/-- A query with filters at two depths, and one that does not concern authors. -/
def authorQuery : Query where
  filters := [("author.name", .string "Borges"), ("author.books.title", .string "Aleph"),
    ("name", .string "x")]

/-- An author whose books are named twice. -/
theorem compile_nested_author :
    authorQuery.behind "author" " all, books(-id),books(shop()) "
        = { fields := some " all, books(-id),books(shop()) "
            filters := [("name", .string "Borges"), ("books.title", .string "Aleph")] } ∧
      (Compiler.compile { options := { maxDepth := 2 } }
          { authorQuery with
            fields := some ("author" ++ "(" ++ " all, books(-id),books(shop()) " ++ ")") }).includes
        = [(Compiler.compile { options := { maxDepth := 1 } }
            (authorQuery.behind "author" " all, books(-id),books(shop()) ")).under "author"] :=
  ⟨by decide,
    compile_nested { options := { maxDepth := 2 } } { options := { maxDepth := 1 } } (by decide)
      rfl (by decide) (by decide) (by decide) (by decide) authorQuery⟩

end FieldSelection
