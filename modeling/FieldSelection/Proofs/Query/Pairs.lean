import FieldSelection.Proofs.Json.Merge
import FieldSelection.Query

/-!
Queries of keys with texts.

A query that is read from keys with texts holds the last text of every key. A reserved key is a
part of the query, and every other key is a filter.

* `Query.lastText?`, `Query.SameLast`: the last text of a key, and lists of keys with texts that
  end every key alike.
* `Query.addPair_eq`: the part of a query that a pair changes.
* `Query.part_ofPairs`, `Query.lookup?_filters_ofPairs`: what a query holds of a list of pairs, by
  induction from its end.
-/

namespace FieldSelection

/-! ### The last text of a key -/

namespace Query

variable {pairs others : List (String × String)}

/-- The last text of a key. -/
def lastText? (key : String) (pairs : List (String × String)) : Option String :=
  ((pairs.filter (·.1 = key)).getLast?).map Prod.snd

lemma lastText?_eq (key : String) (pairs : List (String × String)) :
    lastText? key pairs = Entries.last? key pairs :=
  rfl

lemma lastText?_append_singleton (pairs : List (String × String)) (key other text : String) :
    lastText? other (pairs ++ [(key, text)])
      = if key = other then some text else lastText? other pairs :=
  Entries.last?_append_singleton pairs (key, text) other

lemma lastText?_eq_none {key : String} (h : key ∉ Entries.keys pairs) :
    lastText? key pairs = none := by
  rwa [lastText?_eq, ← Entries.lookup?_merge, Entries.lookup?_eq_none_iff, Entries.mem_keys_merge]

/-- **Lists that end every key alike**: every key has the same last text in both. -/
def SameLast (pairs others : List (String × String)) : Prop :=
  ∀ key, lastText? key pairs = lastText? key others

/-- It is enough to compare the keys that occur. -/
lemma sameLast_iff : SameLast pairs others ↔
    ∀ key ∈ Entries.keys pairs ++ Entries.keys others,
      lastText? key pairs = lastText? key others := by
  refine ⟨fun h key _ => h key, fun h key => ?_⟩
  by_cases hkey : key ∈ Entries.keys pairs ++ Entries.keys others
  · exact h key hkey
  · rw [List.mem_append, not_or] at hkey
    rw [lastText?_eq_none hkey.1, lastText?_eq_none hkey.2]

instance (pairs others : List (String × String)) : Decidable (SameLast pairs others) :=
  decidable_of_iff _ sameLast_iff.symm

/-! ### The query of a list -/

lemma ofPairs_append_singleton (pairs : List (String × String)) (key text : String) :
    ofPairs (pairs ++ [(key, text)]) = (ofPairs pairs).addPair key text :=
  List.foldl_append

/-- A pair changes the one part of a query that its key stands for. -/
lemma addPair_eq (query : Query) (key text : String) : query.addPair key text =
    { fields := if key = "fields" then some text else query.fields
      order := if key = "order" then some text else query.order
      limit := if key = "limit" then some (numberOrText text) else query.limit
      offset := if key = "offset" then some (numberOrText text) else query.offset
      col := if key = "col" then some (.string text) else query.col
      distinct := if key = "distinct" then some (boolOrText text) else query.distinct
      filters := if key ∈ reservedKeys then query.filters
        else Entries.put key (.string text) query.filters } := by
  by_cases hkey : key ∈ reservedKeys
  · simp only [reservedKeys, List.mem_cons, List.not_mem_nil, or_false] at hkey
    rcases hkey with rfl | rfl | rfl | rfl | rfl | rfl <;> rfl
  · have hother := hkey
    simp only [reservedKeys, List.mem_cons, List.not_mem_nil, or_false, not_or] at hother
    simp only [addPair, withFilter, hother, hkey, if_false]

/-- A part of a query that only one key stands for holds the last text of that key. -/
lemma part_ofPairs {α : Type} (part : Query → Option α) (name : String) (read : String → α)
    (hstart : part {} = none)
    (hstep : ∀ query key text, part (addPair query key text)
      = if key = name then some (read text) else part query) :
    part (ofPairs pairs) = (lastText? name pairs).map read := by
  induction pairs using List.reverseRecOn with
  | nil => exact hstart
  | append_singleton pairs pair ih =>
      obtain ⟨key, text⟩ := pair
      rw [ofPairs_append_singleton, hstep, lastText?_append_singleton, ih]
      split <;> rfl

/-- A filter is on the last text of its path. -/
lemma lookup?_filters_ofPairs (path : String) :
    Entries.lookup? path (ofPairs pairs).filters
      = if path ∈ reservedKeys then none else (lastText? path pairs).map .string := by
  induction pairs using List.reverseRecOn with
  | nil => split <;> rfl
  | append_singleton pairs pair ih =>
      obtain ⟨key, text⟩ := pair
      have hfilters : ((ofPairs pairs).addPair key text).filters
          = if key ∈ reservedKeys then (ofPairs pairs).filters
            else Entries.put key (.string text) (ofPairs pairs).filters := by rw [addPair_eq]
      rw [ofPairs_append_singleton, hfilters, lastText?_append_singleton]
      by_cases hreserved : key ∈ reservedKeys
      · rw [if_pos hreserved, ih]
        by_cases hkey : key = path
        · subst hkey
          rw [if_pos hreserved, if_pos hreserved]
        · rw [if_neg hkey]
      · rw [if_neg hreserved, Entries.lookup?_put, ih]
        by_cases hkey : key = path
        · subst hkey
          rw [if_pos rfl, if_pos rfl, if_neg hreserved, Option.map_some]
        · rw [if_neg hkey, if_neg hkey]

end Query

end FieldSelection
