import Mathlib.Data.Finset.Card
import FieldSelection.Proofs.Shape.Distinct

/-!
Merging entries.

Entries that are put one after the other replace what stood under their keys. So a repeated key
stands where it came first and has the value that came last, and merging keeps all entries exactly
if no key is repeated.

* `Entries.merge_of_nodup`: entries without repeated keys are merged already.
* `Entries.lookup?_merge`, `Entries.pairwise_keys_merge`: the values and the order of merged keys.
* `Entries.length_merge`, `Entries.length_merge_eq_iff`: how many entries merging keeps.
-/

namespace FieldSelection.Entries

variable {α : Type} {entries : List (String × α)}

/-- A new key comes last. -/
lemma put_of_notMem {key : String} (h : key ∉ keys entries) (value : α) :
    put key value entries = entries ++ [(key, value)] := by
  induction entries with
  | nil => rfl
  | cons entry entries ih =>
      obtain ⟨hkey, hrest⟩ := List.ne_and_not_mem_of_not_mem_cons h
      rw [put, if_neg (Ne.symm hkey), ih hrest, List.cons_append]

/-- New keys come last, in their order. -/
lemma putAll_of_notMem {new : List (String × α)} (hn : (keys new).Nodup)
    (h : ∀ entry ∈ new, entry.1 ∉ keys entries) : putAll entries new = entries ++ new := by
  induction new generalizing entries with
  | nil => exact (List.append_nil entries).symm
  | cons entry new ih =>
      obtain ⟨hentry, hnew⟩ := List.nodup_cons.mp hn
      obtain ⟨hfirst, hrest⟩ := List.forall_mem_cons.mp h
      have hafter : ∀ other ∈ new, other.1 ∉ keys (entries ++ [entry]) := by
        intro other hm
        have hne : other.1 ≠ entry.1 := by
          intro heq
          have hmem : other.1 ∈ keys new := List.mem_map_of_mem hm
          exact hentry (by rwa [heq] at hmem)
        simpa [keys, hne] using hrest other hm
      calc putAll entries (entry :: new) = putAll (put entry.1 entry.2 entries) new := rfl
        _ = putAll (entries ++ [entry]) new := by rw [put_of_notMem hfirst]
        _ = entries ++ [entry] ++ new := ih hnew hafter
        _ = entries ++ entry :: new := (List.append_cons ..).symm

/-- Entries without repeated keys are merged already. -/
lemma merge_of_nodup (h : (keys entries).Nodup) : merge entries = entries :=
  putAll_of_notMem h fun _ _ => List.not_mem_nil

lemma mem_putAll {key : String} {value : α} {new : List (String × α)}
    (h : (key, value) ∈ putAll entries new) :
    (key, value) ∈ entries ∨ ∃ other, (other, value) ∈ new := by
  induction new generalizing entries with
  | nil => exact Or.inl h
  | cons entry new ih =>
      rcases ih h with hput | ⟨other, hnew⟩
      · rcases mem_put hput with rfl | hold
        · exact Or.inr ⟨entry.1, List.mem_cons_self⟩
        · exact Or.inl hold
      · exact Or.inr ⟨other, List.mem_cons_of_mem _ hnew⟩

/-! ### What merging keeps -/

/-- Merging with one entry more puts it among the others. -/
lemma merge_append_singleton (entries : List (String × α)) (entry : String × α) :
    merge (entries ++ [entry]) = put entry.1 entry.2 (merge entries) := by
  rw [merge, putAll, List.foldl_append]
  rfl

/-- The last value of a key. -/
def last? (key : String) (entries : List (String × α)) : Option α :=
  ((entries.filter (·.1 = key)).getLast?).map Prod.snd

lemma last?_append_singleton (entries : List (String × α)) (entry : String × α) (key : String) :
    last? key (entries ++ [entry])
      = if entry.1 = key then some entry.2 else last? key entries := by
  rw [last?, last?, List.filter_append]
  by_cases hkey : entry.1 = key <;> simp [hkey]

/-- **A merged key has its last value.** -/
lemma lookup?_merge (key : String) (entries : List (String × α)) :
    lookup? key (merge entries) = last? key entries := by
  induction entries using List.reverseRecOn with
  | nil => rfl
  | append_singleton entries entry ih =>
      rw [merge_append_singleton, lookup?_put, last?_append_singleton, ih]

lemma mem_keys_put {key other : String} {value : α} :
    other ∈ keys (put key value entries) ↔ other ∈ keys entries ∨ other = key := by
  rw [keys_put]
  split
  · next h =>
    refine ⟨Or.inl, ?_⟩
    rintro (hother | rfl)
    · exact hother
    · exact h
  · rw [List.mem_append, List.mem_singleton]

/-- Merging brings no key in and leaves none out. -/
lemma mem_keys_merge {key : String} : key ∈ keys (merge entries) ↔ key ∈ keys entries := by
  induction entries using List.reverseRecOn with
  | nil => rfl
  | append_singleton entries entry ih =>
      have hkeys : keys (entries ++ [entry]) = keys entries ++ [entry.1] := List.map_append
      rw [merge_append_singleton, mem_keys_put, ih, hkeys, List.mem_append, List.mem_singleton]

/-- **Merged keys stand in the order in which they come first.** -/
lemma pairwise_keys_merge (entries : List (String × α)) :
    (keys (merge entries)).Pairwise fun key later =>
      (keys entries).idxOf key < (keys entries).idxOf later := by
  induction entries using List.reverseRecOn with
  | nil => exact List.Pairwise.nil
  | append_singleton entries entry ih =>
      have hkeys : keys (entries ++ [entry]) = keys entries ++ [entry.1] := List.map_append
      -- one entry more does not change where the keys before it come first
      have hidx : ∀ {key}, key ∈ keys (merge entries) →
          (keys entries ++ [entry.1]).idxOf key = (keys entries).idxOf key :=
        fun hm => List.idxOf_append_of_mem (mem_keys_merge.mp hm)
      have hbefore : (keys (merge entries)).Pairwise fun key later =>
          (keys entries ++ [entry.1]).idxOf key < (keys entries ++ [entry.1]).idxOf later :=
        ih.imp_of_mem fun hkey hlater hlt => by rwa [hidx hkey, hidx hlater]
      rw [merge_append_singleton, keys_put, hkeys]
      split
      · exact hbefore
      · next hnew =>
        refine List.pairwise_append.mpr ⟨hbefore, List.pairwise_singleton _ _, ?_⟩
        intro key hkey later hlater
        obtain rfl := List.mem_singleton.mp hlater
        have hlast : (keys entries ++ [entry.1]).idxOf entry.1 = (keys entries).length := by
          rw [List.idxOf_append_of_notMem (mt mem_keys_merge.mpr hnew), List.idxOf_cons_self,
            Nat.add_zero]
        rw [hidx hkey, hlast]
        exact List.idxOf_lt_length_of_mem (mem_keys_merge.mp hkey)

lemma nodup_keys_merge (entries : List (String × α)) : (keys (merge entries)).Nodup :=
  (pairwise_keys_merge entries).imp fun {key later} hlt heq => by
    rw [heq] at hlt
    exact absurd hlt (Nat.lt_irrefl _)

/-- Merging keeps one entry for each key. -/
lemma length_merge (entries : List (String × α)) :
    (merge entries).length = (keys entries).toFinset.card := by
  have hfinset : (keys (merge entries)).toFinset = (keys entries).toFinset := by
    ext key
    rw [List.mem_toFinset, List.mem_toFinset, mem_keys_merge]
  calc (merge entries).length = (keys (merge entries)).length := (List.length_map _).symm
    _ = (keys (merge entries)).toFinset.card :=
        (List.toFinset_card_of_nodup (nodup_keys_merge entries)).symm
    _ = (keys entries).toFinset.card := by rw [hfinset]

/-- **Merging keeps all entries** exactly if no key is repeated. -/
lemma length_merge_eq_iff : (merge entries).length = entries.length ↔ (keys entries).Nodup := by
  have hlength : entries.length = Multiset.card (keys entries : Multiset String) :=
    (List.length_map _).symm
  rw [length_merge, hlength]
  exact Multiset.toFinset_card_eq_card_iff_nodup

end FieldSelection.Entries
