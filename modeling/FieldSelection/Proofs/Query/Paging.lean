import FieldSelection.Proofs.Query.Pairs
import FieldSelection.Proofs.Text.Numerals

/-!
Paging parameters.

A query that is read from keys with texts may say how many answers it wants and how many of them
to leave out. Both are numbers of 64 bits if the last text of their key is one, however many
zeros it has in front; any other text is kept as it stands, with the blanks around it.

* `Query.Paged`: how a paging parameter is kept.
* `Query.paged_ofPairs`: the limit and the offset of a list of keys with texts.
-/

namespace FieldSelection

namespace Query

/-- **How a paging parameter is kept**: as the number that is written in its text if 64 bits are
enough for it, and otherwise as the text itself. -/
structure Paged (text : String) (kept : Option Json) : Prop where
  number_iff : ∀ n, kept = some (.nat n) ↔
    Text.Numeral text.toList n ∧ n ≤ 18446744073709551615
  text_iff : kept = some (.string text) ↔
    ¬∃ n, Text.Numeral text.toList n ∧ n ≤ 18446744073709551615

lemma nat_injective : Function.Injective Json.nat := fun m n h => by
  simpa [Json.nat] using h

lemma paged_numberOrText (text : String) : Paged text (some (numberOrText text)) := by
  have hread (n : Nat) : Text.readBounded (Text.trim text.toList) = some n ↔
      Text.Numeral text.toList n ∧ n ≤ Text.largest64 :=
    Text.readBounded_trim_eq_some_iff
  rw [numberOrText]
  cases h : Text.readBounded (Text.trim text.toList) with
  | none =>
      have hnone (n : Nat) : ¬(Text.Numeral text.toList n ∧ n ≤ Text.largest64) := by
        rw [← hread, h]
        exact nofun
      exact ⟨fun n => ⟨nofun, fun hn => absurd hn (hnone n)⟩,
        ⟨fun _ ⟨n, hn⟩ => hnone n hn, fun _ => rfl⟩⟩
  | some n =>
      refine ⟨fun m => ?_, ⟨nofun, fun hn => absurd ⟨n, (hread n).mp h⟩ hn⟩⟩
      rw [Option.some_inj, nat_injective.eq_iff]
      exact ((hread m).symm.trans (by rw [h, Option.some_inj])).symm

/-- **Paging parameters are numbers of 64 bits or texts.** Whatever else is in a list of keys with
texts, the last text of the limit is kept as the number that is written there if there is one of
64 bits, and as it stands if there is none; and so is the last text of the offset. -/
theorem paged_ofPairs (pairs : List (String × String)) (text : String) :
    (lastText? "limit" pairs = some text → Paged text (ofPairs pairs).limit) ∧
      (lastText? "offset" pairs = some text → Paged text (ofPairs pairs).offset) := by
  constructor
  · intro hlast
    have hlimit : (ofPairs pairs).limit = (lastText? "limit" pairs).map numberOrText :=
      part_ofPairs limit "limit" numberOrText rfl fun _ _ _ => by rw [addPair_eq]
    rw [hlimit, hlast]
    exact paged_numberOrText text
  · intro hlast
    have hoffset : (ofPairs pairs).offset = (lastText? "offset" pairs).map numberOrText :=
      part_ofPairs offset "offset" numberOrText rfl fun _ _ _ => by rw [addPair_eq]
    rw [hoffset, hlast]
    exact paged_numberOrText text

/-- Asks for a page of books; the limit is given twice, the second time with zeros and a wide
blank in front, and 64 bits are not enough for the offset. -/
def limitPairs : List (String × String) :=
  [("limit", "ten"), ("offset", "18446744073709551616"), ("fields", "title"),
    ("limit", "\u3000+0018446744073709551615 ")]

/-- The limit is the largest number of 64 bits, and the offset stays a text. -/
theorem paged_ofPairs_pages :
    lastText? "limit" limitPairs = some "\u3000+0018446744073709551615 " ∧
      lastText? "offset" limitPairs = some "18446744073709551616" ∧
      Text.Numeral "\u3000+0018446744073709551615 ".toList 18446744073709551615 ∧
      (¬∃ n, Text.Numeral "18446744073709551616".toList n ∧ n ≤ 18446744073709551615) ∧
      Paged "\u3000+0018446744073709551615 " (ofPairs limitPairs).limit ∧
      Paged "18446744073709551616" (ofPairs limitPairs).offset := by
  have hlimit : Paged "\u3000+0018446744073709551615 " (ofPairs limitPairs).limit :=
    (paged_ofPairs limitPairs _).1 (by decide +kernel)
  have hoffset : Paged "18446744073709551616" (ofPairs limitPairs).offset :=
    (paged_ofPairs limitPairs _).2 (by decide +kernel)
  exact ⟨by decide +kernel, by decide +kernel, ((hlimit.number_iff _).mp (by decide +kernel)).1,
    hoffset.text_iff.mp (by decide +kernel), hlimit, hoffset⟩

end Query

end FieldSelection
