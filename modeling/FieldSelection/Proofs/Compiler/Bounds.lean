import FieldSelection.Proofs.Compiler.Containment
import FieldSelection.Proofs.Compiler.Rendering
import FieldSelection.Proofs.Compiler.WellFormed

/-!
Descriptors are bounded.

A selection is untrusted text, and the associations of models may lead in circles. A descriptor has
no more levels than the limit, the shape and the selection allow all the same. Since a level is
compiled once for every level of the descriptor, this bounds the work, too.

* `Descriptor.size`, `Descriptor.paths`: the number of levels, and the paths that lead to them.
* `Shape.relationCount`, `Shape.relationPaths`: the same for the relations of a shape.
* `openings`: the parentheses that tokens open for some relations; `openings_tokens_le` finds them
  in the text of the tokens, and `openings_bodyTokens_lt` those of the level behind a relation.
* `Place.depth_compiled_le`, `Place.size_compiled_le`, `Place.nodup_paths_compiled`: what room,
  tokens and the place leave to a level, by induction on the room.
* `compile_bounded`: the bounds of a whole descriptor.
-/

namespace FieldSelection

open FieldSelection.Selection FieldSelection.Text

/-! ### Levels of descriptors -/

namespace Descriptor

mutual

/-- The number of levels of a descriptor. -/
def size : Descriptor → Nat
  | { includes, .. } => sizeBelow includes + 1

/-- The number of levels of all these descriptors. -/
def sizeBelow : List Descriptor → Nat
  | [] => 0
  | child :: rest => child.size + sizeBelow rest

end

mutual

/-- The paths of associations to the levels of a descriptor, one path for every level. -/
def paths : Descriptor → List (List String)
  | { includes, .. } => [] :: pathsBelow includes

/-- The paths to the levels of all these descriptors, each from the association that leads to the
descriptor. -/
def pathsBelow : List Descriptor → List (List String)
  | [] => []
  | child :: rest => child.paths.map (child.association.getD "" :: ·) ++ pathsBelow rest

end

lemma size_eq (descriptor : Descriptor) : descriptor.size = sizeBelow descriptor.includes + 1 := by
  cases descriptor
  rw [size]

lemma paths_eq (descriptor : Descriptor) :
    descriptor.paths = [] :: pathsBelow descriptor.includes := by
  cases descriptor
  rw [paths]

lemma depth_eq (descriptor : Descriptor) : descriptor.depth = depthBelow descriptor.includes := by
  cases descriptor
  rw [depth]

@[simp] lemma size_bare (descriptor : Descriptor) : descriptor.bare.size = descriptor.size := by
  rw [size_eq, size_eq, bare]

@[simp] lemma paths_bare (descriptor : Descriptor) : descriptor.bare.paths = descriptor.paths := by
  rw [paths_eq, paths_eq, bare]

@[simp] lemma depth_bare (descriptor : Descriptor) : descriptor.bare.depth = descriptor.depth := by
  rw [depth_eq, depth_eq, bare]

@[simp] lemma size_under (descriptor : Descriptor) (name : String) :
    (descriptor.under name).size = descriptor.size := by
  rw [size_eq, size_eq, under]

@[simp] lemma paths_under (descriptor : Descriptor) (name : String) :
    (descriptor.under name).paths = descriptor.paths := by
  rw [paths_eq, paths_eq, under]

mutual

/-- There is one path for every level. -/
lemma length_paths : ∀ descriptor : Descriptor, descriptor.paths.length = descriptor.size
  | { includes, .. } => by rw [paths, size, List.length_cons, length_pathsBelow includes]

lemma length_pathsBelow : ∀ list : List Descriptor, (pathsBelow list).length = sizeBelow list
  | [] => by rw [pathsBelow, sizeBelow, List.length_nil]
  | child :: rest => by
      rw [pathsBelow, sizeBelow, List.length_append, List.length_map, length_paths child,
        length_pathsBelow rest]

end

lemma depthBelow_le {list : List Descriptor} {depth : Nat}
    (h : ∀ child ∈ list, child.depth < depth) : depthBelow list ≤ depth := by
  induction list with
  | nil =>
      rw [depthBelow]
      exact Nat.zero_le depth
  | cons child list ih =>
      obtain ⟨hchild, hlist⟩ := List.forall_mem_cons.mp h
      rw [depthBelow]
      exact max_le hchild (ih hlist)

end Descriptor

/-! ### Relations of shapes -/

mutual

/-- The number of relations that a node and the nodes behind it are. -/
def Node.relationCount : Node → Nat
  | .field _ => 0
  | .one shape | .many shape => Shape.relationCount shape + 1

/-- The number of relations of a shape, at all depths. -/
def Shape.relationCount : Shape → Nat
  | [] => 0
  | (_, node) :: shape => node.relationCount + Shape.relationCount shape

end

mutual

/-- The paths from a node to the relations behind it, and to itself if it is one. -/
def Node.relationPaths : Node → List (List String)
  | .field _ => []
  | .one shape | .many shape => [] :: Shape.relationPaths shape

/-- The paths to the relations of a shape, at all depths. -/
def Shape.relationPaths : Shape → List (List String)
  | [] => []
  | (name, node) :: shape => node.relationPaths.map (name :: ·) ++ Shape.relationPaths shape

end

mutual

lemma Node.length_relationPaths : ∀ node : Node, node.relationPaths.length = node.relationCount
  | .field _ => rfl
  | .one shape | .many shape => by
      rw [Node.relationPaths, Node.relationCount, List.length_cons,
        Shape.length_relationPaths shape]

/-- There is one path for every relation. -/
lemma Shape.length_relationPaths :
    ∀ shape : Shape, shape.relationPaths.length = shape.relationCount
  | [] => rfl
  | (name, node) :: shape => by
      rw [Shape.relationPaths, Shape.relationCount, List.length_append, List.length_map,
        Node.length_relationPaths node, Shape.length_relationPaths shape]

end

namespace Shape

variable {shape sub : Shape} {path : List String}

lemma cons_mem_relationPaths {name : String} {node : Node} (hmem : (name, node) ∈ shape)
    (hsub : node.shape? = some sub) (hpath : path ∈ [] :: relationPaths sub) :
    name :: path ∈ relationPaths shape := by
  induction shape with
  | nil => cases hmem
  | cons entry shape ih =>
      rw [relationPaths]
      rcases List.mem_cons.mp hmem with rfl | hmem
      · refine List.mem_append_left _ (List.mem_map_of_mem ?_)
        cases node with
        | field key => cases hsub
        | one inner | many inner =>
            cases hsub
            rwa [Node.relationPaths]
      · exact List.mem_append_right _ (ih hmem)

/-- The paths that can be followed through a shape lead to it or to one of its relations. -/
lemma mem_relationPaths_of_follow? (h : shape.follow? path = some sub) :
    path ∈ [] :: relationPaths shape := by
  induction path generalizing shape with
  | nil => exact List.mem_cons_self
  | cons name path ih =>
      obtain ⟨mid, hmid, hrest⟩ := Option.bind_eq_some_iff.mp h
      obtain ⟨node, hnode, hsub⟩ := exists_of_behind? hmid
      exact List.mem_cons_of_mem _ (cons_mem_relationPaths hnode hsub (ih hrest))

/-- There are no more such paths than relations, and the empty one. -/
lemma length_le_of_follow? {paths : List (List String)} (hnodup : paths.Nodup)
    (h : ∀ path ∈ paths, (shape.follow? path).isSome = true) :
    paths.length ≤ 1 + shape.relationCount := by
  have hsubset : paths ⊆ [] :: shape.relationPaths := by
    intro path hpath
    obtain ⟨sub, hsub⟩ := Option.isSome_iff_exists.mp (h path hpath)
    exact mem_relationPaths_of_follow? hsub
  have hlength := (List.subperm_of_subset hnodup hsubset).length_le
  rwa [List.length_cons, length_relationPaths, Nat.add_comm] at hlength

end Shape

/-! ### Parentheses of tokens -/

/-- The parentheses that a token opens if it is one of these relations: the one around its body,
and those in it. -/
def Selection.Token.openings (names : List String) : Token → Nat
  | .relation name body => if name ∈ names then body.toList.count '(' + 1 else 0
  | _ => 0

/-- The parentheses that tokens open for these relations. -/
def openings (names : List String) : List Token → Nat
  | [] => 0
  | token :: rest => token.openings names + openings names rest

lemma openings_append (names : List String) (list list' : List Token) :
    openings names (list ++ list') = openings names list + openings names list' := by
  induction list with
  | nil => rw [List.nil_append, openings, Nat.zero_add]
  | cons token list ih => rw [List.cons_append, openings, openings, ih, Nat.add_assoc]

/-- Different relations open their own parentheses. -/
lemma openings_cons {name : String} {names : List String} (hname : name ∉ names)
    (list : List Token) :
    openings (name :: names) list = openings [name] list + openings names list := by
  induction list with
  | nil => rfl
  | cons token list ih =>
      have htoken : token.openings (name :: names)
          = token.openings [name] + token.openings names := by
        cases token with
        | relation other body =>
            by_cases hother : other = name
            · subst hother
              simp [Token.openings, hname]
            · simp [Token.openings, hother]
        | all | field other | except other | filter other value => rfl
      rw [openings, openings, openings, ih, htoken]
      omega

/-- A token opens parentheses that stand in its piece. -/
lemma openings_le_of_reading? {names : List String} {piece : Piece} {token : Token}
    (h : piece.reading? = some token) : token.openings names ≤ piece.source.count '(' := by
  cases piece with
  | word text ended =>
      rw [Piece.reading?, Option.ite_none_left_eq_some, Option.some.injEq] at h
      obtain ⟨-, rfl⟩ := h
      cases hclassify : classify (trim text) with
      | relation name body => exact absurd hclassify (classify_ne_relation _ _ _)
      | all | field name | except name | filter name value => exact Nat.zero_le _
  | relation name body closed =>
      cases h
      have hbody : (bodyText body).toList.count '(' ≤ body.count '(' := by
        rw [bodyText]
        split
        · exact Nat.zero_le _
        · rw [String.toList_ofList]
          exact (trim_sublist body).count_le '('
      rw [Token.openings, Piece.source, List.count_append, List.count_cons_self,
        List.count_append]
      split <;> omega

/-- **Tokens open parentheses that stand in the text.** -/
lemma openings_tokens_le (names : List String) (text : List Char) :
    openings names (tokens text) ≤ text.count '(' := by
  have key : ∀ list : List Piece, openings names (list.filterMap Piece.reading?)
      ≤ (list.flatMap Piece.source).count '(' := by
    intro list
    induction list with
    | nil => exact Nat.zero_le _
    | cons piece list ih =>
        rw [List.flatMap_cons, List.count_append]
        cases hreading : piece.reading? with
        | none =>
            rw [List.filterMap_cons_none hreading]
            omega
        | some token =>
            rw [List.filterMap_cons_some hreading, openings]
            exact Nat.add_le_add (openings_le_of_reading? hreading) ih
  have htext := key (pieces text)
  rwa [flatMap_source_pieces] at htext

/-- The level behind a relation opens fewer parentheses than the relation: one is left out for every
body. -/
lemma openings_bodyTokens_lt {name : String} {list : List Token} (names : List String)
    (h : name ∈ relationNames list) :
    openings names (bodyTokens name list) < openings [name] list := by
  -- the induction has to count the bodies: without any, there is nothing to be less than
  have key : ∀ list : List Token, openings names (bodyTokens name list) + (bodies name list).length
      ≤ openings [name] list := by
    intro list
    induction list with
    | nil => exact Nat.le_refl _
    | cons token list ih =>
        rw [openings]
        cases hbody : bodyOf? name token with
        | none =>
            rw [bodyTokens_cons_of_none hbody, bodies, List.filterMap_cons_none hbody, ← bodies]
            omega
        | some body =>
            obtain rfl := bodyOf?_eq_some_iff.mp hbody
            have hinner := openings_tokens_le names body.toList
            rw [bodyTokens_cons, if_pos rfl, openings_append, bodies,
              List.filterMap_cons_some hbody, List.length_cons, ← bodies, Token.openings,
              if_pos (List.mem_singleton_self name)]
            omega
  obtain ⟨body, hmem⟩ := mem_relationNames.mp h
  have hpos := List.length_pos_of_mem (mem_bodies.mpr hmem)
  have hbound := key list
  omega

/-! ### Levels of compiled descriptors -/

/-- Levels of different relations, each with fewer parentheses than its relation, are no more than
the parentheses of the relations. -/
lemma sizeBelow_filterMap_le {names : List String} (hnames : names.Nodup) {list : List Token}
    {level? : String → Option Descriptor}
    (h : ∀ name ∈ names, ∀ child, level? name = some child → child.size ≤ openings [name] list) :
    Descriptor.sizeBelow (names.filterMap level?) ≤ openings names list := by
  induction names with
  | nil =>
      rw [List.filterMap_nil, Descriptor.sizeBelow]
      exact Nat.zero_le _
  | cons name names ih =>
      obtain ⟨hname, hrest⟩ := List.nodup_cons.mp hnames
      obtain ⟨hhere, hbehind⟩ := List.forall_mem_cons.mp h
      have hsize := ih hrest hbehind
      rw [openings_cons hname]
      cases hchild : level? name with
      | none =>
          rw [List.filterMap_cons_none hchild]
          omega
      | some child =>
          have hlevel := hhere child hchild
          rw [List.filterMap_cons_some hchild, Descriptor.sizeBelow]
          omega

namespace Place

variable {options : CompileOptions} {query : Query} {place : Place} {room : Nat}
  {tokens : List Token}

/-- **A level is nested no more deeply** than there is room for. -/
lemma depth_compiled_le : (place.compiled options query room tokens).depth ≤ room := by
  induction room generalizing place tokens with
  | zero =>
      rw [compiled_zero, Descriptor.depth_eq, level, Descriptor.depthBelow]
  | succ room ih =>
      rw [Descriptor.depth_eq, includes_compiled_eq_filterMap]
      refine Descriptor.depthBelow_le fun child hchild => ?_
      obtain ⟨name, -, hbelow⟩ := List.mem_filterMap.mp hchild
      obtain ⟨next, -, rfl⟩ := Option.map_eq_some_iff.mp hbelow
      rw [Descriptor.depth_under]
      exact Nat.lt_succ_of_le ih

/-- Without a shape, there is none behind a relation either. -/
lemma shape_eq_none_of_enter? {next : Place} {name : String} (hshape : place.shape = none)
    (h : place.enter? name = some next) : next.shape = none := by
  obtain ⟨-, hnext, -, -⟩ := enter?_eq_some_iff.mp h
  rw [enterShape?, hshape] at hnext
  exact (Option.some.inj hnext).symm

/-- Without a shape, a token `all` adds no relations. -/
lemma unnamed_eq_nil (hshape : place.shape = none) : place.unnamed tokens = [] := by
  rw [unnamed, relations, hshape]
  split <;> rfl

/-- **Without a shape, a level and those below it** are no more than the parentheses of the
relations, and one. -/
lemma size_compiled_le (hshape : place.shape = none) :
    (place.compiled options query room tokens).size
      ≤ openings (relationNames tokens) tokens + 1 := by
  induction room generalizing place tokens with
  | zero =>
      rw [compiled_zero, Descriptor.size_eq, level, Descriptor.sizeBelow]
      exact Nat.le_add_left 1 _
  | succ room ih =>
      rw [Descriptor.size_eq, includes_compiled_eq_filterMap, unnamed_eq_nil hshape,
        List.append_nil]
      refine Nat.succ_le_succ (sizeBelow_filterMap_le (nodup_relationNames tokens) ?_)
      intro name hname child hchild
      obtain ⟨next, hnext, rfl⟩ := Option.map_eq_some_iff.mp hchild
      have hfewer := openings_bodyTokens_lt (relationNames (bodyTokens name tokens)) hname
      rw [Descriptor.size_under, tokensBelow, if_pos hname]
      exact (ih (shape_eq_none_of_enter? hshape hnext)).trans hfewer

/-- The paths to the level behind a relation and to those below it. -/
def pathsThrough (options : CompileOptions) (query : Query) (room : Nat) (place : Place)
    (tokens : List Token) (name : String) : List (List String) :=
  (place.enter? name).elim [] fun next =>
    (next.compiled options query room (tokensBelow name tokens)).paths.map (name :: ·)

lemma mem_pathsThrough {name : String} {path : List String} :
    path ∈ place.pathsThrough options query room tokens name ↔
      ∃ next rest, place.enter? name = some next ∧
        rest ∈ (next.compiled options query room (tokensBelow name tokens)).paths ∧
        name :: rest = path := by
  rw [pathsThrough]
  cases place.enter? name <;> simp

/-- The paths to a level and to those below it, relation by relation. -/
lemma paths_compiled_succ :
    (place.compiled options query (room + 1) tokens).paths
      = [] :: (relationNames tokens ++ place.unnamed tokens).flatMap
          (place.pathsThrough options query room tokens) := by
  rw [Descriptor.paths_eq, includes_compiled_eq_filterMap]
  refine congrArg _ ?_
  induction relationNames tokens ++ place.unnamed tokens with
  | nil => rw [List.filterMap_nil, Descriptor.pathsBelow, List.flatMap_nil]
  | cons name names ih =>
      rw [List.flatMap_cons, ← ih, List.filterMap_cons, below, pathsThrough]
      cases place.enter? name with
      | none => rfl
      | some next =>
          rw [Option.map_some, Descriptor.pathsBelow, Descriptor.paths_under]
          rfl

lemma paths_compiled_zero : (place.compiled options query 0 tokens).paths = [[]] := by
  rw [compiled_zero, Descriptor.paths_eq, level, Descriptor.pathsBelow]

/-- **Every path to a level** is one of relations that are known. -/
lemma follow?_of_mem_paths_compiled {path : List String}
    (h : path ∈ (place.compiled options query room tokens).paths) :
    (place.follow? path).isSome = true := by
  induction room generalizing place tokens path with
  | zero =>
      rw [paths_compiled_zero] at h
      rw [List.mem_singleton.mp h]
      rfl
  | succ room ih =>
      rw [paths_compiled_succ] at h
      rcases List.mem_cons.mp h with rfl | h
      · rfl
      · obtain ⟨name, -, hpath⟩ := List.mem_flatMap.mp h
        obtain ⟨next, rest, hnext, hrest, rfl⟩ := mem_pathsThrough.mp hpath
        rw [follow?, hnext, Option.bind_some]
        exact ih hrest

/-- **No two paths to levels** are the same where no shape has a key twice. -/
lemma nodup_paths_compiled (hd : place.Distinct) :
    (place.compiled options query room tokens).paths.Nodup := by
  induction room generalizing place tokens with
  | zero =>
      rw [paths_compiled_zero]
      exact List.nodup_singleton []
  | succ room ih =>
      rw [paths_compiled_succ, List.nodup_cons, List.nodup_flatMap]
      -- a path is empty, or it starts with a relation, and different ones start different paths
      refine ⟨fun hmem => ?_, fun name _ => ?_, ?_⟩
      · obtain ⟨name, -, hpath⟩ := List.mem_flatMap.mp hmem
        obtain ⟨next, rest, -, -, hnil⟩ := mem_pathsThrough.mp hpath
        cases hnil
      · rw [pathsThrough]
        cases hnext : place.enter? name with
        | none => exact List.nodup_nil
        | some next => exact (ih (hd.enter? hnext)).map (List.cons_injective)
      · refine (nodup_relations_asked hd tokens).imp fun hne path hpath hpath' => ?_
        obtain ⟨next, rest, -, -, rfl⟩ := mem_pathsThrough.mp hpath
        obtain ⟨next', rest', -, -, heq⟩ := mem_pathsThrough.mp hpath'
        exact hne (List.cons.inj heq).1.symm

end Place

/-! ### Whole descriptors -/

namespace Compiler

variable {compiler : Compiler} {query : Query}

/-- Without a shape, a descriptor has no more levels below its root than the selection opens
parentheses. -/
lemma size_compile_le (hshape : compiler.shape = none) :
    (compiler.compile query).size ≤ 1 + (compiler.selection query).toList.count '(' := by
  have htext := openings_tokens_le (relationNames (compiler.tokens query))
    (compiler.selection query).toList
  rw [← Descriptor.size_bare, compiler.bare_compile, Nat.add_comm]
  exact (Place.size_compiled_le hshape).trans (Nat.succ_le_succ htext)

/-- With a shape, the paths to the levels of a descriptor lead through it. -/
lemma follow?_of_mem_paths {shape : Shape} (hshape : compiler.shape = some shape)
    {path : List String} (h : path ∈ (compiler.compile query).paths) :
    (shape.follow? path).isSome = true := by
  rw [← Descriptor.paths_bare, compiler.bare_compile] at h
  obtain ⟨place, hplace⟩ := Option.isSome_iff_exists.mp (Place.follow?_of_mem_paths_compiled h)
  obtain ⟨sub, hsub, -⟩ := Place.shape_of_follow? hshape hplace
  exact Option.isSome_of_eq_some hsub

end Compiler

/-- **Descriptors are bounded**, whatever the selection says and wherever the models lead: they are
nested no more deeply than the limit. Without a shape there are no more levels below the root than
the selection opens parentheses, and with a shape no more than it has relations, since the paths to
the levels lead through the shape and no two of them are the same. -/
theorem compile_bounded (compiler : Compiler) (query : Query)
    (hshape : ∀ shape, compiler.shape = some shape → shape.Distinct) :
    (compiler.compile query).depth ≤ compiler.options.maxDepth ∧
      (compiler.shape = none →
        (compiler.compile query).size ≤ 1 + (compiler.selection query).toList.count '(') ∧
      ∀ shape, compiler.shape = some shape →
        (compiler.compile query).size ≤ 1 + shape.relationCount ∧
          (compiler.compile query).paths.Nodup ∧
          ∀ path ∈ (compiler.compile query).paths, (shape.follow? path).isSome = true := by
  refine ⟨?_, Compiler.size_compile_le, fun shape hsome => ?_⟩
  · rw [← Descriptor.depth_bare, compiler.bare_compile]
    exact Place.depth_compiled_le
  · have hroot : compiler.root.Distinct := hshape
    have hnodup : (compiler.compile query).paths.Nodup := by
      rw [← Descriptor.paths_bare, compiler.bare_compile]
      exact Place.nodup_paths_compiled hroot
    have hpaths : ∀ path ∈ (compiler.compile query).paths, (shape.follow? path).isSome = true :=
      fun path => Compiler.follow?_of_mem_paths hsome
    rw [← Descriptor.length_paths]
    exact ⟨Shape.length_le_of_follow? hnodup hpaths, hnodup, hpaths⟩

/-- People and their friends, who are people, too. -/
def peopleView : ModelView where
  registry := ⟨[⟨"person", [⟨"name", none⟩], [⟨"friends", "person", .many⟩]⟩]⟩
  model := ⟨"person", [⟨"name", none⟩], [⟨"friends", "person", .many⟩]⟩

/-- A compiler for people without a shape, which follows friends three times. -/
def people : Compiler where
  schema := some peopleView
  options := { maxDepth := 3 }

/-- Asks for friends of friends of friends of friends. -/
def friendQuery : Query where
  fields := some "friends(friends(friends(friends(name)))),name,friends()"

/-- Gardens have two relations, and friends are asked for in five pairs of parentheses. -/
theorem compile_bounded_friends :
    ((gardens.compile gardenQuery).size ≤ 1 + 2 ∧ (gardens.compile gardenQuery).paths.Nodup) ∧
      (people.compile friendQuery).depth ≤ 3 ∧ (people.compile friendQuery).size ≤ 1 + 5 := by
  have hgardens : ∀ shape, gardens.shape = some shape → shape.Distinct := by
    rintro _ ⟨⟩
    decide
  have hpeople : ∀ shape, people.shape = some shape → shape.Distinct := by
    rintro _ ⟨⟩
  obtain ⟨-, -, hshape⟩ := compile_bounded gardens gardenQuery hgardens
  obtain ⟨hdepth, hsize, -⟩ := compile_bounded people friendQuery hpeople
  have hcount : (people.selection friendQuery).toList.count '(' = 5 := by decide
  obtain ⟨hgardenSize, hnodup, -⟩ := hshape _ rfl
  exact ⟨⟨hgardenSize, hnodup⟩, hdepth, hcount ▸ hsize rfl⟩

end FieldSelection
