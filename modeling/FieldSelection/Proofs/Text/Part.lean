import FieldSelection.Proofs.Text.Trim
import FieldSelection.Text.Measure

/-!
Parts of a text and where they stand.

Places in a text are counted in bytes, so not every number is one: a place is a boundary between
two characters, or an end of the text.

* `Stands`: a part that stands in a text at a place; `Stands.trans` adds up the places of parts
  of parts, and `Stands.trim` finds the trimmed form of a part.
* `Boundary`: the places in a text.
-/

namespace FieldSelection.Text

/-- **A part stands in a text** at a place if so many bytes of the text are in front of it. -/
def Stands (text : List Char) (place : Nat) (part : List Char) : Prop :=
  ∃ front back, text = front ++ (part ++ back) ∧ bytes front = place

/-- The places in a text: the boundaries between its characters, and its ends. -/
def Boundary (text : List Char) (place : Nat) : Prop :=
  ∃ front back, text = front ++ back ∧ bytes front = place

lemma stands_self (text : List Char) : Stands text 0 text :=
  ⟨[], [], by simp, rfl⟩

namespace Stands

variable {text part inner first rest : List Char} {place within : Nat} {c : Char}

/-- A part of a part is a part. -/
lemma trans (h : Stands text place part) (h' : Stands part within inner) :
    Stands text (place + within) inner := by
  obtain ⟨front, back, rfl, rfl⟩ := h
  obtain ⟨front', back', rfl, rfl⟩ := h'
  exact ⟨front ++ front', back' ++ back, by simp only [List.append_assoc], bytes_append _ _⟩

lemma left (h : Stands text place (first ++ rest)) : Stands text place first := by
  obtain ⟨front, back, rfl, rfl⟩ := h
  exact ⟨front, rest ++ back, by simp only [List.append_assoc], rfl⟩

lemma right (h : Stands text place (first ++ rest)) :
    Stands text (place + bytes first) rest := by
  obtain ⟨front, back, rfl, rfl⟩ := h
  exact ⟨front ++ first, back, by simp only [List.append_assoc], bytes_append _ _⟩

lemma head (h : Stands text place (c :: rest)) : Stands text place [c] := by
  rw [← List.singleton_append] at h
  exact h.left

lemma tail (h : Stands text place (c :: rest)) : Stands text (place + c.utf8Size) rest := by
  rw [← List.singleton_append] at h
  exact h.right

/-- The trimmed form of a part stands behind the leading blanks. -/
lemma trim (h : Stands text place part) :
    Stands text (place + bytes (part.takeWhile isBlank)) (trim part) := by
  obtain ⟨back, -, hback⟩ := exists_blank_behind part
  rw [← List.takeWhile_append_dropWhile (p := isBlank) (l := part), hback] at h
  exact h.right.left

lemma boundary (h : Stands text place part) : Boundary text place := by
  obtain ⟨front, back, rfl, rfl⟩ := h
  exact ⟨front, part ++ back, rfl, rfl⟩

/-- A part ends at a boundary, too. -/
lemma boundary_stop (h : Stands text place part) : Boundary text (place + bytes part) := by
  rw [← List.append_nil part] at h
  exact h.right.boundary

end Stands

lemma Boundary.le_bytes {text : List Char} {place : Nat} (h : Boundary text place) :
    place ≤ bytes text := by
  obtain ⟨front, back, rfl, rfl⟩ := h
  rw [bytes_append]
  exact Nat.le_add_right _ _

/-- Strings count their bytes in the same way. -/
lemma utf8ByteSize_ofList (text : List Char) : (String.ofList text).utf8ByteSize = bytes text := by
  induction text with
  | nil => rfl
  | cons c text ih =>
      rw [String.ofList_cons, String.utf8ByteSize_append, String.utf8ByteSize_singleton, ih,
        bytes_cons]

end FieldSelection.Text
