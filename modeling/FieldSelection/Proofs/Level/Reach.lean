import FieldSelection.Proofs.Level.Descent

/-!
Levels below the root.

A descriptor is a tree, and so are the places and the tokens it was made from. A path
of relations leads down all three at once.

* `Descriptor.at?`, `Place.follow?`, `tokensAt`: the level, the place and the tokens at
  the end of a path; `Descriptor.Reaches` leads to every level of a descriptor, also to
  siblings that share an association.
* `mem_includes_compiled`: one step down.
* `reaches_compile_within`, `reaches_compile`: every level of a descriptor is the one that its
  place makes of its tokens.
-/

namespace FieldSelection

open FieldSelection.Selection

/-! ### Paths of relations -/

/-- The level at the end of a path of associations, if all of them are listed. -/
def Descriptor.at? (descriptor : Descriptor) : List String → Option Descriptor
  | [] => some descriptor
  | name :: path => (descriptor.include? name).bind (·.at? path)

/-- A level at the end of a path of associations. Where siblings share an association, a
path leads on from each of them. -/
inductive Descriptor.Reaches : Descriptor → List String → Descriptor → Prop where
  | here (level : Descriptor) : Reaches level [] level
  | down {descriptor child level : Descriptor} {name : String} {path : List String}
      (hchild : child ∈ descriptor.includes) (hname : child.association = some name)
      (hlevel : Reaches child path level) : Reaches descriptor (name :: path) level

/-- The place at the end of a path of relations, if all of them are known. -/
def Place.follow? (place : Place) : List String → Option Place
  | [] => some place
  | name :: path => (place.enter? name).bind (·.follow? path)

/-- What relations hand on from place to place, a path of relations hands on. -/
lemma Place.of_follow? {P : Place → Prop}
    (henter : ∀ {place next : Place} {name : String}, P place → place.enter? name = some next →
      P next)
    {place next : Place} {path : List String} (hp : P place)
    (h : place.follow? path = some next) : P next := by
  induction path generalizing place with
  | nil =>
      cases h
      exact hp
  | cons name path ih =>
      obtain ⟨mid, hmid, hnext⟩ := Option.bind_eq_some_iff.mp h
      exact ih (henter hp hmid) hnext

/-- The place behind a relation, part by part. -/
lemma Place.enter?_eq_some_iff {place next : Place} {name : String} :
    place.enter? name = some next ↔
      name ≠ "" ∧ place.enterShape? name = some next.shape ∧
        place.enterSchema? name = some next.schema ∧ next.path = joinPath place.path name := by
  obtain ⟨shape, schema, path⟩ := next
  rw [enter?]
  split
  · next hname => simp [hname]
  · next hname =>
    cases place.enterShape? name <;> cases place.enterSchema? name <;>
      simp [hname, eq_comm]

/-- The tokens of the level behind a relation: those of its bodies, or `all` if no
token names the relation. -/
def tokensBelow (name : String) (tokens : List Token) : List Token :=
  if name ∈ relationNames tokens then bodyTokens name tokens else [.all]

/-- The tokens of the level at the end of a path of relations. -/
def tokensAt : List String → List Token → List Token
  | [], tokens => tokens
  | name :: path, tokens => tokensAt path (tokensBelow name tokens)

/-- What is listed and followed does not depend on what only a root or an association has. -/
lemma Descriptor.include?_bare (descriptor : Descriptor) (name : String) :
    descriptor.bare.include? name = descriptor.include? name :=
  rfl

lemma Descriptor.child?_bare (descriptor : Descriptor) (name : String) :
    descriptor.bare.child? name = descriptor.child? name :=
  rfl

/-- The level at the end of a path is one that the path leads to. -/
lemma Descriptor.Reaches.of_at? {descriptor level : Descriptor} {path : List String}
    (h : descriptor.at? path = some level) : descriptor.Reaches path level := by
  induction path generalizing descriptor with
  | nil =>
      cases h
      exact .here _
  | cons name path ih =>
      obtain ⟨child, hchild, hlevel⟩ := Option.bind_eq_some_iff.mp h
      have hname := List.find?_some hchild
      exact .down (List.mem_of_find?_eq_some hchild) (by simpa using hname) (ih hlevel)

/-! ### One step down -/

section Step

variable {options : CompileOptions} {query : Query} {room : Nat} {place : Place}
  {tokens : List Token}

/-- The levels below a level, whether their relations are named or added: each is made of the
tokens below its relation. -/
lemma includes_compiled_eq_filterMap :
    (place.compiled options query (room + 1) tokens).includes
      = (relationNames tokens ++ place.unnamed tokens).filterMap fun name =>
          place.below options query room name (tokensBelow name tokens) := by
  rw [Place.includes_compiled, List.filterMap_append]
  refine congrArg₂ _ (List.filterMap_congr fun name hname => ?_)
    (List.filterMap_congr fun name hname => ?_)
  · rw [tokensBelow, if_pos hname]
  · rw [tokensBelow, if_neg (Place.notMem_of_mem_unnamed hname).1]

/-- The levels right below a level are those of relations that it knows and that are
named, or that a token `all` adds. -/
lemma mem_includes_compiled {child : Descriptor}
    (h : child ∈ (place.compiled options query room tokens).includes) :
    ∃ name next room', place.enter? name = some next ∧
      (name ∈ relationNames tokens ∨ name ∈ place.unnamed tokens) ∧
      child = (next.compiled options query room' (tokensBelow name tokens)).under name := by
  cases room with
  | zero => cases h
  | succ room =>
      rw [includes_compiled_eq_filterMap, List.mem_filterMap] at h
      obtain ⟨name, hname, hchild⟩ := h
      obtain ⟨next, hnext, rfl⟩ := Option.map_eq_some_iff.mp hchild
      exact ⟨name, next, room, hnext, List.mem_append.mp hname, rfl⟩

/-- A level right below is the one that the place behind its association makes. -/
lemma of_mem_includes_compiled {name : String} {child : Descriptor}
    (h : child ∈ (place.compiled options query room tokens).includes)
    (hname : child.association = some name) :
    ∃ next room', place.enter? name = some next ∧
      (name ∈ relationNames tokens ∨ name ∈ place.unnamed tokens) ∧
      child = (next.compiled options query room' (tokensBelow name tokens)).under name := by
  obtain ⟨other, next, room', hnext, hreason, rfl⟩ := mem_includes_compiled h
  obtain rfl : other = name := Option.some.inj hname
  exact ⟨next, room', hnext, hreason, rfl⟩

/-- The level that is listed for a relation is the one that the place behind it
makes. -/
lemma include?_compiled {name : String} {child : Descriptor}
    (h : (place.compiled options query room tokens).include? name = some child) :
    ∃ next room', place.enter? name = some next ∧
      (name ∈ relationNames tokens ∨ name ∈ place.unnamed tokens) ∧
      child = (next.compiled options query room' (tokensBelow name tokens)).under name := by
  have hname := List.find?_some h
  exact of_mem_includes_compiled (List.mem_of_find?_eq_some h) (by simpa using hname)

end Step

/-- Relations are followed that are not listed if everything is asked for and there is no shape
to list them from. -/
lemma includeAll_compiled (options : CompileOptions) (query : Query) (room : Nat)
    (place : Place) (tokens : List Token) :
    (place.compiled options query room tokens).includeAll
      = (decide (Token.all ∈ tokens) && place.shape.isNone) := by
  rw [← place.asked_all options.includeKeys, Place.compiled_eq_level]
  rfl

/-! ### Any number of steps down -/

/-- A level below a level is the one that its place makes of its tokens, with the room that the
path to it leaves. -/
lemma reaches_of_bare {options : CompileOptions} {query : Query} {room : Nat} {place : Place}
    {tokens : List Token} {descriptor level : Descriptor} {path : List String}
    (hbare : descriptor.bare = place.compiled options query room tokens)
    (h : descriptor.Reaches path level) :
    ∃ next left, path.length + left = room ∧ place.follow? path = some next ∧
      level.bare = next.compiled options query left (tokensAt path tokens) := by
  induction h generalizing room place tokens with
  | here level => exact ⟨place, room, Nat.zero_add room, rfl, hbare⟩
  | @down descriptor child level name path hchild hname hlevel ih =>
      rw [← descriptor.includes_bare, hbare] at hchild
      cases room with
      | zero => cases hchild
      | succ room =>
          rw [includes_compiled_eq_filterMap, List.mem_filterMap] at hchild
          obtain ⟨other, -, hbelow⟩ := hchild
          obtain ⟨next, hnext, rfl⟩ := Option.map_eq_some_iff.mp hbelow
          obtain rfl : other = name := Option.some.inj hname
          have hnextBare := (Descriptor.bare_under _ other).trans
            (Place.bare_compiled options query next (tokensBelow other tokens) room)
          obtain ⟨last, left, hlength, hlast, heq⟩ := ih hnextBare
          refine ⟨last, left, ?_, ?_, heq⟩
          · rw [List.length_cons]
            omega
          · rw [Place.follow?, hnext, Option.bind_some, hlast]

/-- **Every level of a descriptor** is the one that its place makes of its tokens, with the room
that the nesting limit leaves there. -/
lemma reaches_compile_within {compiler : Compiler} {query : Query} {path : List String}
    {level : Descriptor} (h : (compiler.compile query).Reaches path level) :
    ∃ place left, path.length + left = compiler.options.maxDepth ∧
      compiler.root.follow? path = some place ∧
      level.bare = place.compiled compiler.options query left
        (tokensAt path (compiler.tokens query)) :=
  reaches_of_bare (compiler.bare_compile query) h

/-- Where the room does not matter, it is left out. -/
lemma reaches_compile {compiler : Compiler} {query : Query} {path : List String}
    {level : Descriptor} (h : (compiler.compile query).Reaches path level) :
    ∃ place room, compiler.root.follow? path = some place ∧
      level.bare = place.compiled compiler.options query room
        (tokensAt path (compiler.tokens query)) := by
  obtain ⟨place, left, -, hplace⟩ := reaches_compile_within h
  exact ⟨place, left, hplace⟩

lemma at?_compile {compiler : Compiler} {query : Query} {path : List String}
    {level : Descriptor} (h : (compiler.compile query).at? path = some level) :
    ∃ place room, compiler.root.follow? path = some place ∧
      level.bare = place.compiled compiler.options query room
        (tokensAt path (compiler.tokens query)) :=
  reaches_compile (.of_at? h)

end FieldSelection
