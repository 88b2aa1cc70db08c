/-!
Texts that are lists of parts with one separating character between them.

* `split`: the parts of a text at a separator, empty ones included.
* `join`: the parts with the separator between them; `join_split` says that
  splitting loses nothing.
-/

namespace FieldSelection.Text

/-- Put a character in front of the first part. -/
def attach (c : Char) : List (List Char) → List (List Char)
  | [] => [[c]]
  | part :: parts => (c :: part) :: parts

/-- The parts of a text at a separator. There is always at least one part, and
two neighbouring separators have an empty part between them. -/
def split (separator : Char) (text : List Char) : List (List Char) :=
  text.foldr
    (fun c parts => if c = separator then [] :: parts else attach c parts) [[]]

/-- The parts with the separator between them. -/
def join (separator : Char) : List (List Char) → List Char
  | [] => []
  | [part] => part
  | part :: parts => part ++ separator :: join separator parts

@[simp]
theorem split_nil (separator : Char) : split separator [] = [[]] := rfl

theorem split_cons (separator c : Char) (text : List Char) :
    split separator (c :: text) =
      if c = separator then [] :: split separator text
      else attach c (split separator text) := rfl

/-- A text has at least one part. -/
theorem split_ne_nil (separator : Char) (text : List Char) :
    split separator text ≠ [] := by
  cases text with
  | nil => simp
  | cons c text =>
    rw [split_cons]
    split
    · simp
    · cases split separator text <;> simp [attach]

/-- Splitting loses nothing: the parts, joined again, give the text. -/
theorem join_split (separator : Char) (text : List Char) :
    join separator (split separator text) = text := by
  induction text with
  | nil => rfl
  | cons c text ih =>
    have hne := split_ne_nil separator text
    rw [split_cons]
    cases hparts : split separator text with
    | nil => exact absurd hparts hne
    | cons part parts =>
      rw [hparts] at ih
      by_cases hc : c = separator
      · rw [if_pos hc, join, ih, hc, List.nil_append]
        simp
      · rw [if_neg hc, attach]
        cases parts with
        | nil => simpa [join] using ih
        | cons next parts => simpa [join] using ih

end FieldSelection.Text
