/-!
The size of a text in UTF-8 bytes. All positions that the library reports count
bytes.

* `bytes`: the number of bytes that a text takes; `bytes_append` makes it
  additive.
-/

namespace FieldSelection.Text

/-- The number of bytes that a text takes when it is written in UTF-8. -/
def bytes (text : List Char) : Nat :=
  text.foldr (fun c size => c.utf8Size + size) 0

@[simp]
theorem bytes_nil : bytes [] = 0 := rfl

@[simp]
theorem bytes_cons (c : Char) (text : List Char) :
    bytes (c :: text) = c.utf8Size + bytes text := rfl

/-- The size of a text is the sum of the sizes of its parts. -/
@[simp]
theorem bytes_append (left right : List Char) :
    bytes (left ++ right) = bytes left + bytes right := by
  induction left with
  | nil => simp
  | cons c left ih => rw [List.cons_append, bytes_cons, bytes_cons, ih, Nat.add_assoc]

end FieldSelection.Text
