import Mathlib.Data.List.TakeWhile
import Mathlib.Tactic.Common
import FieldSelection.Text.Blank

/-!
Trimming and blanks around a text.

Blanks at either end are invisible to `trim` (`trim_blank_append`,
`trim_append_blank`), a text is its trimmed form with blanks around it
(`exists_blank_around`), and trimming twice is trimming once (`trim_trim`). Exactly the
texts that neither start nor end with a blank stay as they are (`trim_eq_self_iff`).
-/

namespace FieldSelection.Text

/-! ### Blank texts -/

lemma IsBlank.reverse {text : List Char} (h : IsBlank text) : IsBlank text.reverse :=
  fun c hc => h c (List.mem_reverse.mp hc)

lemma IsBlank.notMem {text : List Char} {c : Char} (h : IsBlank text)
    (hc : isBlank c = false) : c ∉ text := by
  intro hmem
  rw [h c hmem] at hc
  cases hc

/-- A blank text vanishes when it is trimmed. -/
lemma IsBlank.trim_eq_nil {text : List Char} (h : IsBlank text) : trim text = [] :=
  trim_eq_nil_iff.mpr h

/-! ### Blanks at the ends -/

lemma trimStart_blank_append {blanks : List Char} (h : IsBlank blanks) (text : List Char) :
    trimStart (blanks ++ text) = trimStart text :=
  List.dropWhile_append_of_pos h

lemma trimEnd_append_blank {blanks : List Char} (h : IsBlank blanks) (text : List Char) :
    trimEnd (text ++ blanks) = trimEnd text := by
  rw [trimEnd, trimEnd, List.reverse_append, List.dropWhile_append_of_pos h.reverse]

/-- Blanks in front of a text do not change its trimmed form. -/
lemma trim_blank_append {blanks : List Char} (h : IsBlank blanks) (text : List Char) :
    trim (blanks ++ text) = trim text := by
  rw [trim, trim, trimStart_blank_append h]

/-- Blanks behind a text do not change its trimmed form. -/
lemma trim_append_blank {blanks : List Char} (h : IsBlank blanks) (text : List Char) :
    trim (text ++ blanks) = trim text := by
  by_cases ht : IsBlank text
  · rw [trim_blank_append ht, h.trim_eq_nil, ht.trim_eq_nil]
  · have hne : text.dropWhile isBlank ≠ [] := fun h0 => ht (trimStart_eq_nil_iff.mp h0)
    have happ : trimStart (text ++ blanks) = trimStart text ++ blanks := by
      rw [trimStart, trimStart, List.dropWhile_append, if_neg (by simpa using hne)]
    rw [trim, trim, happ, trimEnd_append_blank h]

/-! ### The trimmed form -/

/-- Behind its leading blanks, a text is its trimmed form with blanks behind it. -/
lemma exists_blank_behind (text : List Char) :
    ∃ back, IsBlank back ∧ text.dropWhile isBlank = trim text ++ back := by
  refine ⟨((trimStart text).reverse.takeWhile isBlank).reverse, fun c hc => ?_, ?_⟩
  · exact List.mem_takeWhile_imp (List.mem_reverse.mp hc)
  · rw [trim, trimEnd, ← List.reverse_append, List.takeWhile_append_dropWhile,
      List.reverse_reverse, trimStart]

/-- A text is its trimmed form with blanks around it. -/
lemma exists_blank_around (text : List Char) :
    ∃ front back, IsBlank front ∧ IsBlank back ∧ text = front ++ (trim text ++ back) := by
  obtain ⟨back, hback, h⟩ := exists_blank_behind text
  refine ⟨text.takeWhile isBlank, back, fun c hc => List.mem_takeWhile_imp hc, hback, ?_⟩
  rw [← h, List.takeWhile_append_dropWhile]

/-- Trimming only leaves characters out. -/
lemma trim_sublist (text : List Char) : (trim text).Sublist text := by
  obtain ⟨front, back, -, -, h⟩ := exists_blank_around text
  have hinfix : trim text <:+: text := ⟨front, back, by rw [List.append_assoc, ← h]⟩
  exact hinfix.sublist

/-- Trimming twice is trimming once. -/
@[simp] lemma trim_trim (text : List Char) : trim (trim text) = trim text := by
  obtain ⟨front, back, hfront, hback, h⟩ := exists_blank_around text
  calc trim (trim text) = trim (trim text ++ back) := (trim_append_blank hback _).symm
    _ = trim (front ++ (trim text ++ back)) := (trim_blank_append hfront _).symm
    _ = trim text := by rw [← h]

/-- A text stays as it is if no blank is in front. -/
lemma trimStart_eq_self_iff {text : List Char} :
    trimStart text = text ↔ ∀ c ∈ text.head?, isBlank c = false := by
  cases text with
  | nil => simp [trimStart]
  | cons c text => simp [trimStart, List.dropWhile_eq_self_iff]

/-- The texts that trimming leaves as they are start and end without a blank. -/
lemma trim_eq_self_iff {text : List Char} :
    trim text = text ↔
      (∀ c ∈ text.head?, isBlank c = false) ∧ ∀ c ∈ text.getLast?, isBlank c = false := by
  have hend : trimEnd text = text ↔ ∀ c ∈ text.getLast?, isBlank c = false := by
    rw [← List.head?_reverse, ← trimStart_eq_self_iff, trimEnd, ← trimStart, List.reverse_eq_iff]
  rw [← hend, ← trimStart_eq_self_iff]
  constructor
  · intro h
    have hlength : (trim text).length ≤ (trimStart text).length := by
      rw [trim, trimEnd, List.length_reverse]
      exact (List.dropWhile_suffix isBlank).length_le.trans_eq List.length_reverse
    rw [h] at hlength
    have hstart : trimStart text = text :=
      (List.dropWhile_suffix isBlank).eq_of_length_le hlength
    exact ⟨hstart, by rwa [trim, hstart] at h⟩
  · rintro ⟨hstart, hend⟩
    rw [trim, hstart, hend]

/-- A text without blanks stays as it is. -/
lemma trim_eq_self_of_forall {text : List Char} (h : ∀ c ∈ text, isBlank c = false) :
    trim text = text :=
  trim_eq_self_iff.mpr ⟨fun c hc => h c (List.mem_of_mem_head? hc),
    fun c hc => h c (List.mem_of_mem_getLast? hc)⟩

/-- Texts that trimming leaves as they are can be put around a character that is no blank. -/
lemma trim_append_cons {left right : List Char} {c : Char} (hleft : trim left = left)
    (hright : trim right = right) (hc : isBlank c = false) :
    trim (left ++ c :: right) = left ++ c :: right := by
  rw [trim_eq_self_iff] at hleft hright ⊢
  constructor
  · cases left with
    | nil => simpa using hc
    | cons d left => simpa using hleft.1
  · rcases List.eq_nil_or_concat right with rfl | ⟨right, d, rfl⟩
    · simpa using hc
    · rw [List.concat_eq_append, List.getLast?_concat] at hright
      rw [List.concat_eq_append, ← List.cons_append, ← List.append_assoc, List.getLast?_concat]
      exact hright.2

end FieldSelection.Text
