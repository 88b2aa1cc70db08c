import Mathlib.Data.List.Induction
import Mathlib.Data.Nat.Digits.Defs
import FieldSelection.Proofs.Text.Trim
import FieldSelection.Text.Digits

/-!
Whole numbers as they are written.

A number is written in decimal digits, the first of which counts most; a plus sign may stand in
front of them and blanks around. Reading a trimmed text finds exactly the numbers of 64 bits
that are written so.

* `decimalValue`: the number that decimal digits denote.
* `Numeral`: a text and the number that is written there.
* `readNat_eq_some_iff`, `readBounded_eq_some_iff`: what a reader of digits accepts.
* `readBounded_trim_eq_some_iff`: a trimmed text is read as the number that is written there, if
  64 bits are enough for it.
-/

namespace FieldSelection.Text

/-- The number for which a decimal digit stands. -/
def digitValue (c : Char) : Nat :=
  c.toNat - '0'.toNat

/-- The number that decimal digits denote, the first digit counting most. -/
def decimalValue (digits : List Char) : Nat :=
  Nat.ofDigits 10 (digits.reverse.map digitValue)

/-- **A number as it is written**: one or more of the digits from `0` to `9`, also with zeros in
front; one plus sign may stand before them, and blanks around. -/
def Numeral (text : List Char) (n : Nat) : Prop :=
  ∃ front sign digits back, text = front ++ (sign ++ digits ++ back) ∧
    IsBlank front ∧ IsBlank back ∧ (sign = [] ∨ sign = ['+']) ∧
    digits ≠ [] ∧ (∀ c ∈ digits, '0' ≤ c ∧ c ≤ '9') ∧ decimalValue digits = n

/-! ### Digits -/

lemma isDigit_iff {c : Char} : c.isDigit = true ↔ '0' ≤ c ∧ c ≤ '9' := by
  rw [Char.isDigit, Bool.and_eq_true, decide_eq_true_iff, decide_eq_true_iff]
  exact Iff.rfl

lemma isBlank_of_digit {c : Char} (h : '0' ≤ c ∧ c ≤ '9') : isBlank c = false := by
  have hlow : 48 ≤ c.toNat := UInt32.le_iff_toNat_le.mp h.1
  have hhigh : c.toNat ≤ 57 := UInt32.le_iff_toNat_le.mp h.2
  simp only [isBlank, blankRanges, List.any_cons, List.any_nil, Bool.or_false, Bool.or_eq_false_iff,
    Bool.and_eq_false_iff, decide_eq_false_iff_not]
  omega

/-- One more digit counts one, and the digits before it ten times as much. -/
lemma decimalValue_append_singleton (digits : List Char) (c : Char) :
    decimalValue (digits ++ [c]) = decimalValue digits * 10 + digitValue c := by
  rw [decimalValue, List.reverse_append, List.reverse_singleton, List.singleton_append,
    List.map_cons, Nat.ofDigits_cons, ← decimalValue]
  omega

/-- Reading digits from the left adds them up to the number that they denote. -/
lemma foldl_eq_decimalValue (digits : List Char) :
    digits.foldl (fun n c => n * 10 + (c.toNat - '0'.toNat)) 0 = decimalValue digits := by
  induction digits using List.reverseRecOn with
  | nil => rfl
  | append_singleton digits c ih =>
      rw [List.foldl_append, ih, decimalValue_append_singleton]
      rfl

/-! ### Readers -/

lemma readNat_eq_some_iff {text : List Char} {n : Nat} :
    readNat text = some n ↔
      text ≠ [] ∧ (∀ c ∈ text, '0' ≤ c ∧ c ≤ '9') ∧ decimalValue text = n := by
  simp only [readNat, foldl_eq_decimalValue, List.all_eq_true, isDigit_iff]
  split
  · next h => exact Option.some_inj.trans ⟨fun hvalue => ⟨h.1, h.2, hvalue⟩, fun h => h.2.2⟩
  · next h => exact ⟨nofun, fun hread => absurd ⟨hread.1, hread.2.1⟩ h⟩

lemma readBounded_eq_some_iff {text : List Char} {n : Nat} :
    readBounded text = some n ↔
      (∃ sign digits, text = sign ++ digits ∧ (sign = [] ∨ sign = ['+']) ∧
        digits ≠ [] ∧ (∀ c ∈ digits, '0' ≤ c ∧ c ≤ '9') ∧ decimalValue digits = n) ∧
      n ≤ largest64 := by
  have hplus : ¬('0' ≤ '+' ∧ '+' ≤ '9') := by decide
  simp only [readBounded, Option.filter_eq_some_iff, readNat_eq_some_iff, decide_eq_true_iff]
  refine and_congr_left fun _ => ?_
  split
  · next digits =>
    constructor
    · rintro ⟨hne, hdigits, hvalue⟩
      exact ⟨['+'], digits, rfl, .inr rfl, hne, hdigits, hvalue⟩
    · rintro ⟨sign, rest, htext, rfl | rfl, hne, hdigits, hvalue⟩
      · rw [List.nil_append] at htext
        exact absurd (hdigits '+' (htext ▸ by simp)) hplus
      · obtain rfl := List.tail_eq_of_cons_eq htext
        exact ⟨hne, hdigits, hvalue⟩
  · next hsign =>
    constructor
    · rintro ⟨hne, hdigits, hvalue⟩
      exact ⟨[], text, rfl, .inl rfl, hne, hdigits, hvalue⟩
    · rintro ⟨sign, rest, rfl, rfl | rfl, hne, hdigits, hvalue⟩
      · exact ⟨hne, hdigits, hvalue⟩
      · exact absurd rfl (hsign rest)

/-- **A trimmed text is read as the number that is written there**, if 64 bits are enough for
it. -/
lemma readBounded_trim_eq_some_iff {text : List Char} {n : Nat} :
    readBounded (trim text) = some n ↔ Numeral text n ∧ n ≤ largest64 := by
  rw [readBounded_eq_some_iff]
  refine and_congr_left fun _ => ⟨?_, ?_⟩
  · rintro ⟨sign, digits, htrim, hsign, hdigits⟩
    obtain ⟨front, back, hfront, hback, htext⟩ := exists_blank_around text
    exact ⟨front, sign, digits, back, by rw [← htrim, ← htext], hfront, hback, hsign, hdigits⟩
  · rintro ⟨front, sign, digits, back, rfl, hfront, hback, hsign, hne, hdigits, hvalue⟩
    have hplain : ∀ c ∈ sign ++ digits, isBlank c = false := by
      intro c hc
      rcases List.mem_append.mp hc with hc | hc
      · rcases hsign with rfl | rfl
        · cases hc
        · rw [List.mem_singleton.mp hc]
          decide
      · exact isBlank_of_digit (hdigits c hc)
    refine ⟨sign, digits, ?_, hsign, hne, hdigits, hvalue⟩
    rw [trim_blank_append hfront, trim_append_blank hback, trim_eq_self_of_forall hplain]

end FieldSelection.Text
