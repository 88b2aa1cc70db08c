import Mathlib.Data.List.TakeWhile
import FieldSelection.Proofs.Text.Separated
import FieldSelection.Selection.Token

/-!
What a word means.

The word `all` stands for everything, a dash in front excludes a name, a single `=` separates a
name from a value, and any other word is a name.

* `notMem_of_isAll`, `isAll_eq_false_of_mem`: the characters in the word `all`, in any case.
* `classify_minus`, `classify_of_head`: words with a dash in front, and all others.
* `classify_dash`, `classify_filter`, `classify_name`: how exclusions, filters and names are
  written.
* `classify_ne_relation`: no word is a relation.
-/

namespace FieldSelection.Selection

open FieldSelection.Text

/-! ### The word `all` -/

lemma notMem_of_isAll {word : List Char} (h : isAll word = true) {c : Char}
    (hc : c.toLower ∉ ['a', 'l', 'l']) : c ∉ word := by
  intro hmem
  have hmap : word.map Char.toLower = ['a', 'l', 'l'] := by simpa [isAll] using h
  exact hc (hmap ▸ List.mem_map_of_mem hmem)

lemma isAll_eq_false_of_mem {word : List Char} {c : Char} (hmem : c ∈ word)
    (hc : c.toLower ∉ ['a', 'l', 'l']) : isAll word = false := by
  by_contra h
  exact notMem_of_isAll (by simpa using h) hc hmem

lemma classify_of_isAll {word : List Char} (h : isAll word = true) : classify word = .all :=
  if_pos h

/-! ### All other words -/

/-- A dash in front excludes the name up to the first `=`. -/
lemma classify_minus (text : List Char) :
    classify ('-' :: text) = .except (.ofList (trim (text.takeWhile (· != '=')))) := by
  have hall : isAll ('-' :: text) = false := isAll_eq_false_of_mem List.mem_cons_self (by decide)
  simp [classify, hall]

/-- A dash in front of a name excludes it. -/
lemma classify_dash {name : List Char} (h : '=' ∉ name) :
    classify ('-' :: name) = .except (.ofList (trim name)) := by
  have hname : name.takeWhile (· != '=') = name :=
    List.takeWhile_eq_self_iff.mpr fun c hc => bne_iff_ne.mpr (ne_of_mem_of_not_mem hc h)
  rw [classify_minus, hname]

/-- Without a dash in front, and if it is not `all`, a word is told by the parts that `=` separates
in it. -/
lemma classify_of_head {word : List Char} (hall : isAll word = false)
    (hdash : word.head? ≠ some '-') :
    classify word =
      match split '=' word with
      | [name, value] => .filter (.ofList (trim name)) (.ofList (trim value))
      | _ => .field (.ofList word) := by
  unfold classify
  rw [if_neg (by simp [hall])]
  split
  · exact absurd rfl hdash
  · rfl

/-- A word is a name unless `=` occurs just once. -/
lemma classify_name {word : List Char} (hall : isAll word = false)
    (hdash : word.head? ≠ some '-') (hequals : word.count '=' ≠ 1) :
    classify word = .field (.ofList word) := by
  rw [classify_of_head hall hdash]
  split
  · next hsplit =>
    have hlength : (split '=' word).length = word.count '=' + 1 := length_split word
    rw [hsplit] at hlength
    exact absurd (Nat.succ_injective hlength).symm hequals
  · rfl

/-- If it does, it separates a name from a value. -/
lemma classify_filter {name value : List Char} (hname : '=' ∉ name) (hvalue : '=' ∉ value)
    (hdash : name.head? ≠ some '-') :
    classify (name ++ '=' :: value) = .filter (.ofList (trim name)) (.ofList (trim value)) := by
  have hall : isAll (name ++ '=' :: value) = false :=
    isAll_eq_false_of_mem (List.mem_append_right _ List.mem_cons_self) (by decide)
  have hhead : (name ++ '=' :: value).head? ≠ some '-' := by
    cases name with
    | nil => simp
    | cons c name => exact hdash
  rw [classify_of_head hall hhead, split_append_separator hname, split_of_notMem hvalue]

/-- A word is no relation. -/
lemma classify_ne_relation (word : List Char) (name body : String) :
    classify word ≠ .relation name body := by
  unfold classify
  split
  · exact Token.noConfusion
  · split
    · exact Token.noConfusion
    · split <;> exact Token.noConfusion

end FieldSelection.Selection
