import FieldSelection.Text.Measure

/-!
One nesting level of a selection text, cut into pieces.

A piece is a word, which a comma or the end of the text ends, or a name with a
body in parentheses. Bodies are not cut any further here.

* `pieces`: the pieces of a text in order.
* `flatMap_source_pieces`: the pieces, written one after the other, are the text
  again, so that cutting loses nothing.
* `matchingClose`: where the body that starts at a given place is closed.
-/

namespace FieldSelection.Selection

open FieldSelection.Text

/-! ### Nesting -/

/-- The nesting level inside a body after one more character, and `none` when
that character closes the body. -/
def nest (level : Nat) (c : Char) : Option Nat :=
  if c = '(' then some (level + 1)
  else if c = ')' then (if level = 0 then none else some (level - 1))
  else some level

/-- The position at which the body that is open at `level` is closed. Characters
that start before `first` are skipped; `position` counts the bytes read. -/
def closeFrom (first : Nat) : (level position : Nat) → List Char → Option Nat
  | _, _, [] => none
  | level, position, c :: text =>
    if position < first then closeFrom first level (position + c.utf8Size) text
    else
      match nest level c with
      | none => some position
      | some level => closeFrom first level (position + c.utf8Size) text

/-- The position of the `)` that closes the body whose first byte is `first`, if
the text closes it at all. -/
def matchingClose (text : List Char) (first : Nat) : Option Nat :=
  closeFrom first 0 0 text

/-! ### Pieces -/

/-- A piece of one level of a selection text, with its characters as written. -/
inductive Piece where
  /-- Characters outside parentheses; `ended` tells whether a comma follows. -/
  | word (text : List Char) (ended : Bool)
  /-- A name and its body; `closed` tells whether the closing parenthesis is
  there. A body that is not closed runs to the end of the text. -/
  | relation (name body : List Char) (closed : Bool)
  deriving DecidableEq, Repr

/-- The text that a piece was cut from. -/
def Piece.source : Piece → List Char
  | .word text ended => text ++ if ended then [','] else []
  | .relation name body closed =>
    name ++ '(' :: (body ++ if closed then [')'] else [])

mutual

/-- Cut a text inside a word whose characters so far are `word`, last one
first. -/
def cutWord (word : List Char) : List Char → List Piece
  | [] => [.word word.reverse false]
  | c :: text =>
    if c = ',' then .word word.reverse true :: cutWord [] text
    else if c = '(' then cutBody word.reverse [] 0 text
    else cutWord (c :: word) text

/-- Cut a text inside the body of `name` whose characters so far are `body`, last
one first. -/
def cutBody (name body : List Char) (level : Nat) : List Char → List Piece
  | [] => [.relation name body.reverse false]
  | c :: text =>
    match nest level c with
    | none => .relation name body.reverse true :: cutWord [] text
    | some level => cutBody name (c :: body) level text

end

/-- The pieces of one level of a selection text. -/
def pieces (text : List Char) : List Piece :=
  cutWord [] text

/-! ### Cutting loses nothing -/

/-- Only a closing parenthesis closes a body. -/
theorem eq_of_nest_eq_none {level : Nat} {c : Char} (h : nest level c = none) :
    c = ')' := by
  by_cases hc : c = ')'
  · exact hc
  · by_cases hp : c = '(' <;> simp [nest, hc, hp] at h

mutual

/-- Cutting inside a word keeps the word so far and the text. -/
theorem flatMap_source_cutWord (word : List Char) :
    ∀ text, (cutWord word text).flatMap Piece.source = word.reverse ++ text
  | [] => by simp [cutWord, Piece.source]
  | c :: text => by
    rw [cutWord]
    split
    · next h => simp [Piece.source, flatMap_source_cutWord [] text, h]
    · split
      · next h => simp [flatMap_source_cutBody word.reverse [] 0 text, h]
      · simp [flatMap_source_cutWord (c :: word) text]

/-- Cutting inside a body keeps the name, the body so far and the text. -/
theorem flatMap_source_cutBody (name body : List Char) (level : Nat) :
    ∀ text, (cutBody name body level text).flatMap Piece.source =
      name ++ '(' :: (body.reverse ++ text)
  | [] => by simp [cutBody, Piece.source]
  | c :: text => by
    rw [cutBody]
    split
    · next h =>
      simp [Piece.source, flatMap_source_cutWord [] text, eq_of_nest_eq_none h]
    · next next _ =>
      simp [flatMap_source_cutBody name (c :: body) next text]

end

/-- The pieces of a text, written one after the other, are the text again. -/
theorem flatMap_source_pieces (text : List Char) :
    (pieces text).flatMap Piece.source = text := by
  simp [pieces, flatMap_source_cutWord]

end FieldSelection.Selection
