import FieldSelection.Proofs.Level.Equivalence
import FieldSelection.Proofs.Query.Pairs

/-!
The order of parameters does not matter.

A query that is read from keys with texts holds the last text of every key. Its filters stand in
the order in which their keys came first, and where a level selects every attribute it is searched
in that order for filters on its attributes. The filters of a level are in the order of their
names, though, so nothing of it is left.

* `Query.Agree`: queries that are the same but for the order of their filters; `SameLast.agree`
  finds them made of lists that end every key alike.
* `Place.compiled_congr_query`: a level depends on no more of a query than what filters there are
  on a path.
* `compile_ofPairs_eq`: lists that end every key alike have the same descriptor and the same notes.
-/

namespace FieldSelection

open FieldSelection.Selection

/-! ### Queries that agree -/

namespace Query

variable {pairs others : List (String × String)}

/-- **Queries that agree**: in every part, and on the filters on every path, which need not be in
the same order. -/
structure Agree (query query' : Query) : Prop where
  fields : query.fields = query'.fields
  order : query.order = query'.order
  limit : query.limit = query'.limit
  offset : query.offset = query'.offset
  col : query.col = query'.col
  distinct : query.distinct = query'.distinct
  filter? : ∀ path, query.filter? path = query'.filter? path

/-- Lists that end every key alike make queries that agree. -/
lemma SameLast.agree (h : SameLast pairs others) : (ofPairs pairs).Agree (ofPairs others) := by
  have hpart : ∀ {α : Type} (part : Query → Option α) (name : String) (read : String → α),
      part {} = none →
      (∀ query key text, part (addPair query key text)
        = if key = name then some (read text) else part query) →
      part (ofPairs pairs) = part (ofPairs others) := by
    intro α part name read hstart hstep
    rw [part_ofPairs part name read hstart hstep, part_ofPairs part name read hstart hstep, h]
  exact
    { fields := hpart fields "fields" id rfl fun _ _ _ => by rw [addPair_eq]; rfl
      order := hpart order "order" id rfl fun _ _ _ => by rw [addPair_eq]; rfl
      limit := hpart limit "limit" numberOrText rfl fun _ _ _ => by rw [addPair_eq]
      offset := hpart offset "offset" numberOrText rfl fun _ _ _ => by rw [addPair_eq]
      col := hpart col "col" .string rfl fun _ _ _ => by rw [addPair_eq]
      distinct := hpart distinct "distinct" boolOrText rfl fun _ _ _ => by rw [addPair_eq]
      filter? := fun path => by
        rw [filter?, filter?, lookup?_filters_ofPairs, lookup?_filters_ofPairs, h] }

end Query

/-! ### Levels of queries that agree -/

namespace Place

variable {options : CompileOptions} {query query' : Query} {place : Place}

/-- A level has its filters in the order of their names, so it does not show in which order the
query has them. -/
lemma level_congr_query {request : Request} (hs : Entries.Sorted request.filters)
    (h : ∀ path, query.filter? path = query'.filter? path) (includes : List Descriptor) :
    place.level options query request includes = place.level options query' request includes := by
  -- which names a level admits filters on is settled by its request
  have hadmits : ∀ name, (place.level options query request includes).Admits name
      ↔ (place.level options query' request includes).Admits name := fun _ => .rfl
  have hfilters : (place.level options query request includes).filters
      = (place.level options query' request includes).filters := by
    refine (sorted_filters_level hs).ext (sorted_filters_level hs) fun name => ?_
    rw [lookup?_filters_level, lookup?_filters_level, h]
    exact if_congr (hadmits name) rfl rfl
  have hrequired : (place.level options query request includes).required
      = (place.level options query' request includes).required := by
    ext mark
    cases mark with
    | true =>
        rw [required_eq_true_iff, required_eq_true_iff]
        simp only [hadmits, h]
    | false =>
        rw [required_eq_false_iff, required_eq_false_iff]
        simp only [hadmits, h]
  exact (Descriptor.mk.injEq ..).mpr
    ⟨rfl, rfl, rfl, hfilters, hrequired, rfl, rfl, rfl, rfl, rfl, rfl, rfl, rfl⟩

/-- **A level depends on no more of a query** than what filters there are on a path. -/
lemma compiled_congr_query (h : ∀ path, query.filter? path = query'.filter? path) (room : Nat)
    (tokens : List Token) :
    place.compiled options query room tokens = place.compiled options query' room tokens :=
  compiled_congr options place tokens query query' (fun place tokens includes =>
    level_congr_query (sorted_filters_asked place options.includeKeys tokens) h includes) room

end Place

namespace Compiler

variable {compiler : Compiler} {query query' : Query}

/-- Queries that agree have the same descriptor. -/
lemma compile_congr (h : query.Agree query') :
    compiler.compile query = compiler.compile query' := by
  have htokens : compiler.tokens query = compiler.tokens query' := by
    rw [tokens, tokens, selection, selection, h.fields]
  rw [compile_eq, compile_eq, htokens, Place.compiled_congr_query h.filter?, h.limit, h.offset,
    h.col, h.distinct, h.order]

/-- The notes are on the selection alone. -/
lemma notes_congr (h : query.fields = query'.fields) :
    compiler.notes query = compiler.notes query' := by
  have hselection : compiler.selection query = compiler.selection query' := by
    rw [selection, selection, h]
  have hall : compiler.selectsAll query = compiler.selectsAll query' := by
    rw [selectsAll, selectsAll, hselection]
  rw [notes, notes, request, request, segments, segments, hall, hselection]

end Compiler

/-- **The order of parameters does not matter**: two lists of keys with texts in which every key
has the same last text make the same descriptor, and the same is noticed about them. -/
theorem compile_ofPairs_eq {pairs others : List (String × String)}
    (h : Query.SameLast pairs others) (compiler : Compiler) :
    compiler.compile (.ofPairs pairs) = compiler.compile (.ofPairs others) ∧
      compiler.notes (.ofPairs pairs) = compiler.notes (.ofPairs others) :=
  ⟨Compiler.compile_congr h.agree, Compiler.notes_congr h.agree.fields⟩

/-- Asks for everything of a book but its price, twice for another page, and for a genre that is
given twice. -/
def bookPairs : List (String × String) :=
  [("title", "Emma"), ("genre", "essay"), ("limit", "10"), ("fields", "all,-price"),
    ("genre", "novel,tale"), ("limit", "20")]

/-- The same with the keys in another order and without what does not count. -/
def bookPairsReordered : List (String × String) :=
  [("limit", "20"), ("genre", "novel,tale"), ("fields", "all,-price"), ("title", "Emma")]

/-- Their filters are found in different orders and make the same level. -/
theorem compile_ofPairs_eq_books :
    Compiler.compile {} (.ofPairs bookPairs) = Compiler.compile {} (.ofPairs bookPairsReordered) ∧
      Compiler.notes {} (.ofPairs bookPairs) = Compiler.notes {} (.ofPairs bookPairsReordered) ∧
      (Query.ofPairs bookPairs).filters ≠ (Query.ofPairs bookPairsReordered).filters ∧
      (Compiler.compile {} (.ofPairs bookPairs)).filters
        = [("genre", .many [.string "novel", .string "tale"]),
          ("title", .one (.string "Emma"))] := by
  obtain ⟨hcompile, hnotes⟩ := compile_ofPairs_eq
    (by decide : Query.SameLast bookPairs bookPairsReordered) {}
  exact ⟨hcompile, hnotes, by decide +kernel, by decide +kernel⟩

end FieldSelection
