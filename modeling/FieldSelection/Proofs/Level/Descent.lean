import FieldSelection.Compiler
import FieldSelection.Proofs.Level.Request

/-!
Levels as functions of tokens.

A level and all levels below it depend on the tokens of the level alone: not on the
places of bodies in the text, and not on whether the selection of everything takes
the short way.

* `Place.compiled`: the descriptor of a level that a list of tokens asks for;
  `descriptor_request` finds it behind every request of a selection.
* `Place.compiled_zero`, `Place.compiled_succ`: its recursion; the tokens of a
  level below are the tokens of its bodies (`bodyTokens`), or `all` where the level
  is reached by a selection of everything. `Place.compiled_congr` is the induction
  on the levels that may follow.
* `Descriptor.bare`: a descriptor without what only a root or an association has.
* `Compiler.compile_eq`: the descriptor of a query is the one of its tokens.
-/

namespace FieldSelection

open FieldSelection.Selection

/-! ### Places do not matter -/

namespace Place

variable (options : CompileOptions) (query : Query)

lemma level_unplaced (place : Place) (request : Request) (includes : List Descriptor) :
    place.level options query request.unplaced includes
      = place.level options query request includes :=
  rfl

lemma walked_unplaced (place : Place) (request : Request) :
    place.walked request.unplaced = place.walked request := by
  have hnamed : request.unplaced.hasRelation = request.hasRelation := by
    funext name
    rw [Request.hasRelation, Request.hasRelation, Request.unplaced, List.any_map]
    rfl
  rw [walked, walked, hnamed]
  rfl

/-- The descriptor of a request does not depend on the places of its bodies. -/
lemma descriptor_unplaced (room : Nat) (place : Place) (request : Request) :
    Place.descriptor options query room place request.unplaced
      = Place.descriptor options query room place request := by
  induction room generalizing place request with
  | zero => rfl
  | succ room ih =>
      have hbody : ∀ (next : Place) (relation : RelationRequest),
          Place.descriptor options query room next
              (next.request options.includeKeys relation.unplaced.segments)
            = Place.descriptor options query room next
              (next.request options.includeKeys relation.segments) := by
        intro next relation
        rw [← ih, unplaced_request, ← ih next (next.request _ relation.segments),
          unplaced_request, RelationRequest.unplaced, List.flatMap_map]
      have hrelations : request.unplaced.relations
          = request.relations.map RelationRequest.unplaced := rfl
      simp only [Place.descriptor, walked_unplaced, level_unplaced, hrelations,
        List.filterMap_map, Function.comp_def, hbody]
      rfl

/-! ### The descriptor of a list of tokens -/

/-- The descriptor of a level that a list of tokens asks for, and of the levels
below it. -/
def compiled (room : Nat) (place : Place) (tokens : List Token) : Descriptor :=
  Place.descriptor options query room place (place.asked options.includeKeys tokens)

/-- **A level is a function of its tokens.** -/
lemma descriptor_request (room : Nat) (place : Place) (segments : List Segment) :
    Place.descriptor options query room place (place.request options.includeKeys segments)
      = place.compiled options query room
          (segments.flatMap fun segment => tokens segment.text.toList) := by
  rw [← descriptor_unplaced, unplaced_request]
  rfl

/-- A level that everything is asked of has the one token `all`. -/
lemma descriptor_everything (room : Nat) (place : Place) :
    Place.descriptor options query room place .everything
      = place.compiled options query room [.all] :=
  rfl

/-- The descriptor of the level behind a relation, if the place knows the
relation. -/
def below (room : Nat) (place : Place) (name : String) (tokens : List Token) :
    Option Descriptor :=
  (place.enter? name).map fun next => (next.compiled options query room tokens).under name

end Place

/-- A descriptor without the association that leads to it, and without the order and the
parameters that only a root has. -/
def Descriptor.bare (descriptor : Descriptor) : Descriptor :=
  { descriptor with
    association := none, limit := none, offset := none, order := [], col := none,
    distinct := none }

@[simp] lemma Descriptor.bare_under (descriptor : Descriptor) (name : String) :
    (descriptor.under name).bare = descriptor.bare :=
  rfl

lemma Descriptor.includes_bare (descriptor : Descriptor) :
    descriptor.bare.includes = descriptor.includes :=
  rfl

/-- The tokens of all bodies that tokens give to a relation. -/
def bodyTokens (name : String) (list : List Token) : List Token :=
  (bodies name list).flatMap fun body => tokens body.toList

lemma bodyTokens_append (name : String) (list list' : List Token) :
    bodyTokens name (list ++ list') = bodyTokens name list ++ bodyTokens name list' := by
  rw [bodyTokens, bodies, List.filterMap_append, List.flatMap_append]
  rfl

lemma bodyTokens_cons (name other body : String) (list : List Token) :
    bodyTokens name (.relation other body :: list)
      = (if other = name then Selection.tokens body.toList else []) ++ bodyTokens name list := by
  rw [← List.singleton_append, bodyTokens_append]
  by_cases h : other = name <;> simp [bodyTokens, bodies, bodyOf?, h]

lemma bodyTokens_cons_of_none {name : String} {token : Token} (h : bodyOf? name token = none)
    (list : List Token) : bodyTokens name (token :: list) = bodyTokens name list := by
  rw [bodyTokens, bodies, List.filterMap_cons_none h, ← bodies, ← bodyTokens]

lemma bodyTokens_eq_nil {name : String} {list : List Token} (h : name ∉ relationNames list) :
    bodyTokens name list = [] := by
  rw [bodyTokens, bodies_eq_nil h, List.flatMap_nil]

/-- The relations that tokens exclude at a place. -/
def Place.unwantedRelations (place : Place) (tokens : List Token) : List String :=
  tokens.filterMap place.unwantedRelation?

/-- The relations that a token `all` adds to the ones that are named. -/
def Place.unnamed (place : Place) (tokens : List Token) : List String :=
  if .all ∈ tokens then
    place.relations.filter fun name =>
      name ∉ relationNames tokens && name ∉ place.unwantedRelations tokens
  else []

namespace Place

variable (options : CompileOptions) (query : Query) (place : Place) (tokens : List Token)

lemma hasRelation_asked (keysMode : Bool) (name : String) :
    (place.asked keysMode tokens).hasRelation name = decide (name ∈ relationNames tokens) := by
  rw [Request.hasRelation, asked_relations, List.any_map, List.any_eq]
  simp

lemma walked_asked (keysMode : Bool) :
    place.walked (place.asked keysMode tokens) = place.unnamed tokens := by
  have hexcluded : ∀ name, name ∈ (place.asked keysMode tokens).excludedRelations
      ↔ name ∈ place.unwantedRelations tokens := by
    intro name
    rw [asked_excludedRelations, mem_distinctNames, unwantedRelations]
  simp only [walked, unnamed, asked_all, decide_eq_true_eq, hasRelation_asked, hexcluded,
    decide_not]

/-- What a token `all` adds was neither named nor excluded. -/
lemma notMem_of_mem_unnamed {place : Place} {tokens : List Token} {name : String}
    (h : name ∈ place.unnamed tokens) :
    name ∉ relationNames tokens ∧ name ∉ place.unwantedRelations tokens := by
  rw [unnamed] at h
  split at h
  · simpa using (List.mem_filter.mp h).2
  · cases h

/-- A token `all` on its own adds every relation of the place. -/
lemma unnamed_all (place : Place) : place.unnamed [.all] = place.relations := by
  have hnamed : relationNames [.all] = [] := rfl
  have hunwanted : place.unwantedRelations [.all] = [] := rfl
  simp [unnamed, hnamed, hunwanted]

/-- Without room there is nothing below a level. -/
lemma compiled_zero :
    place.compiled options query 0 tokens
      = place.level options query (place.asked options.includeKeys tokens) [] :=
  rfl

/-- With room, the levels below are those of the relations that are named, with
the tokens of their bodies, and then those that a token `all` adds. -/
lemma compiled_succ (room : Nat) :
    place.compiled options query (room + 1) tokens
      = place.level options query (place.asked options.includeKeys tokens)
          ((relationNames tokens).filterMap (fun name =>
              place.below options query room name (bodyTokens name tokens)) ++
            (place.unnamed tokens).filterMap fun name =>
              place.below options query room name [.all]) := by
  rw [compiled, Place.descriptor]
  simp only [walked_asked, asked_relations, List.filterMap_map, Function.comp_def,
    descriptor_request, descriptor_everything, List.flatMap_map, below, bodyTokens]

/-- With or without room, a level is made of the request of its tokens; only what it
includes depends on the room. -/
lemma compiled_eq_level (room : Nat) :
    place.compiled options query room tokens
      = place.level options query (place.asked options.includeKeys tokens)
          (place.compiled options query room tokens).includes := by
  cases room with
  | zero => rw [compiled_zero]; rfl
  | succ room => rw [compiled_succ]; rfl

lemma bare_compiled (room : Nat) :
    (place.compiled options query room tokens).bare
      = place.compiled options query room tokens := by
  rw [compiled_eq_level]
  rfl

/-- Queries that make the same of every single level make the same of all levels. -/
lemma compiled_congr (query query' : Query)
    (h : ∀ (place : Place) (tokens : List Token) (includes : List Descriptor),
      place.level options query (place.asked options.includeKeys tokens) includes
        = place.level options query' (place.asked options.includeKeys tokens) includes)
    (room : Nat) :
    place.compiled options query room tokens = place.compiled options query' room tokens := by
  induction room generalizing place tokens with
  | zero => exact h place tokens []
  | succ room ih =>
      rw [compiled_succ, compiled_succ, h]
      simp only [below, ih]

/-- A level does not depend on the selection text of the query. -/
lemma compiled_fields (fields : Option String) (room : Nat) :
    place.compiled options { query with fields } room tokens
      = place.compiled options query room tokens :=
  compiled_congr options place tokens { query with fields } query (fun _ _ _ => rfl) room

lemma includes_compiled (room : Nat) :
    (place.compiled options query (room + 1) tokens).includes
      = (relationNames tokens).filterMap (fun name =>
            place.below options query room name (bodyTokens name tokens)) ++
          (place.unnamed tokens).filterMap fun name =>
            place.below options query room name [.all] := by
  rw [compiled_succ, level]

end Place

/-! ### The root -/

namespace Compiler

variable (compiler : Compiler) (query : Query)

/-- The tokens of the selection of a query. -/
def tokens (compiler : Compiler) (query : Query) : List Token :=
  Selection.tokens (compiler.selection query).toList

/-- The short way of a selection of everything leads where the long way does. -/
lemma descriptor_request (room : Nat) :
    Place.descriptor compiler.options query room compiler.root (compiler.request query)
      = compiler.root.compiled compiler.options query room (compiler.tokens query) := by
  rw [request, tokens]
  split
  · next h => rw [tokens_of_isAll h, Place.descriptor_everything]
  · rw [Place.descriptor_request, segments, List.flatMap_singleton]

/-- **The descriptor of a query is the one of its tokens**, with the order and the
parameters of the query. -/
lemma compile_eq :
    compiler.compile query =
      { compiler.root.compiled compiler.options query compiler.options.maxDepth
          (compiler.tokens query) with
        limit := Query.valueOf query.limit
        offset := Query.valueOf query.offset
        col := Query.valueOf query.col
        distinct := Query.valueOf query.distinct
        order := query.order.elim [] fun text => parseOrder text.toList } := by
  rw [compile, descriptor_request, Descriptor.withParameters]
  cases query.order <;> rfl

lemma bare_compile :
    (compiler.compile query).bare
      = compiler.root.compiled compiler.options query compiler.options.maxDepth
          (compiler.tokens query) := by
  rw [← Place.bare_compiled, compile_eq]
  rfl

/-- Selection texts whose tokens select the same make the same descriptor. -/
lemma compile_fields {fields fields' : Option String}
    (h : compiler.root.compiled compiler.options query compiler.options.maxDepth
        (compiler.tokens { query with fields })
      = compiler.root.compiled compiler.options query compiler.options.maxDepth
        (compiler.tokens { query with fields := fields' })) :
    compiler.compile { query with fields } = compiler.compile { query with fields := fields' } := by
  rw [compile_eq, compile_eq, Place.compiled_fields _ query _ _ fields,
    Place.compiled_fields _ query _ _ fields', h]

lemma includes_compile :
    (compiler.compile query).includes
      = (compiler.root.compiled compiler.options query compiler.options.maxDepth
          (compiler.tokens query)).includes := by
  rw [compile_eq]

end Compiler

end FieldSelection
