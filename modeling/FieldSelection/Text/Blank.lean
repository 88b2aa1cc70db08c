/-!
Blank characters and trimming.

* `isBlank`: the characters with the Unicode property `White_Space`. The
  no-break space and the ideographic space are blank; the zero width space and
  the byte order mark are not.
* `trim`: a text without the blanks at its two ends; `trim_eq_nil_iff` says that
  exactly the blank texts vanish.
-/

namespace FieldSelection.Text

/-! ### The property `White_Space` -/

/-- The ranges of code points, both ends included, that have the Unicode
property `White_Space`. -/
def blankRanges : List (Nat × Nat) :=
  [(0x0009, 0x000D), (0x0020, 0x0020), (0x0085, 0x0085), (0x00A0, 0x00A0),
    (0x1680, 0x1680), (0x2000, 0x200A), (0x2028, 0x2029), (0x202F, 0x202F),
    (0x205F, 0x205F), (0x3000, 0x3000)]

/-- A character is blank if its code point lies in one of the `blankRanges`. -/
def isBlank (c : Char) : Bool :=
  blankRanges.any fun range => range.1 ≤ c.toNat && c.toNat ≤ range.2

/-! ### Trimming -/

/-- A text without its leading blanks. -/
def trimStart (text : List Char) : List Char :=
  text.dropWhile isBlank

/-- A text without its trailing blanks. -/
def trimEnd (text : List Char) : List Char :=
  (text.reverse.dropWhile isBlank).reverse

/-- A text without its leading and trailing blanks. -/
def trim (text : List Char) : List Char :=
  trimEnd (trimStart text)

/-- A text is blank if it holds nothing but blanks. -/
def IsBlank (text : List Char) : Prop :=
  ∀ c ∈ text, isBlank c = true

instance (text : List Char) : Decidable (IsBlank text) :=
  List.decidableBAll (isBlank · = true) text

/-- Exactly the blank texts lose all their characters at the front. -/
theorem trimStart_eq_nil_iff {text : List Char} :
    trimStart text = [] ↔ IsBlank text := by
  induction text with
  | nil => simp [trimStart, IsBlank]
  | cons c text ih =>
    by_cases hc : isBlank c = true
    · have hcons : IsBlank (c :: text) ↔ IsBlank text := by simp [IsBlank, hc]
      rw [hcons, ← ih, trimStart, List.dropWhile_cons_of_pos hc, trimStart]
    · simp [trimStart, IsBlank, hc]

/-- Exactly the blank texts lose all their characters at the back. -/
theorem trimEnd_eq_nil_iff {text : List Char} :
    trimEnd text = [] ↔ IsBlank text := by
  have h : IsBlank text.reverse ↔ IsBlank text := by simp [IsBlank]
  rw [← h, ← trimStart_eq_nil_iff, trimEnd, trimStart, List.reverse_eq_nil_iff]

/-- A text that starts with a character that is not blank keeps it first. -/
theorem trimStart_cons_of_not_blank {c : Char} {text : List Char}
    (h : isBlank c = false) : trimStart (c :: text) = c :: text := by
  simp [trimStart, h]

/-- Exactly the blank texts vanish when they are trimmed. -/
theorem trim_eq_nil_iff {text : List Char} : trim text = [] ↔ IsBlank text := by
  rw [trim, trimEnd_eq_nil_iff]
  constructor
  · intro h
    induction text with
    | nil => intro c hc; cases hc
    | cons c text ih =>
      by_cases hc : isBlank c = true
      · have h' : IsBlank (trimStart text) := by
          simpa [trimStart, hc] using h
        intro d hd
        rcases List.mem_cons.1 hd with rfl | hd
        · exact hc
        · exact ih h' d hd
      · have hc' : isBlank c = false := by simpa using hc
        rw [trimStart_cons_of_not_blank hc'] at h
        exact absurd (h c (by simp)) hc
  · intro h c hc
    exact h c ((List.dropWhile_sublist isBlank).subset hc)

end FieldSelection.Text
