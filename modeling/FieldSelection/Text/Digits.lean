/-!
Reading whole numbers.

* `readNat`: the number that a text of decimal digits denotes.
* `readBounded`: the same for numbers of 64 bits, with a plus sign allowed.
-/

namespace FieldSelection.Text

/-- The largest number of 64 bits. -/
def largest64 : Nat := 0xFFFFFFFFFFFFFFFF

/-- The number that a text of one or more decimal digits denotes. -/
def readNat (text : List Char) : Option Nat :=
  if text ≠ [] ∧ text.all Char.isDigit then
    some (text.foldl (fun n c => n * 10 + (c.toNat - '0'.toNat)) 0)
  else none

/-- The number of 64 bits that decimal digits denote; a plus sign may stand in
front of them. -/
def readBounded (text : List Char) : Option Nat :=
  let digits := match text with
    | '+' :: digits => digits
    | _ => text
  (readNat digits).filter (· ≤ largest64)

end FieldSelection.Text
