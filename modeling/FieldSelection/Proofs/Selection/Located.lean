import FieldSelection.Proofs.Selection.Cut
import FieldSelection.Selection.Token

/-!
What a scan finds in pieces and in their places.

A scan reads the pieces of a text one after the other, and each of them where it starts. So what it
finds in a list of pieces is told by recursion on the list.

* `mem_of_mem_locate`, `exists_mem_locate`: the pieces with a place are those of the list.
* `pairwise_locate`, `exists_mem_locate_of_lt`: they stand one behind the other, and every byte
  belongs to one of them.
* `tokensFrom`, `issuesFrom`: the tokens and the issues of a list of pieces that starts at a place;
  `tokenize_eq` takes those of a text together.
* `tokensFrom_append`, `issuesFrom_append`: two lists, one behind the other.
-/

namespace FieldSelection.Selection

open FieldSelection.Text

/-! ### Pieces with a place -/

variable {list : List Piece}

lemma mem_of_mem_locate {offset : Nat} {located : Nat × Piece}
    (h : located ∈ locate offset list) : located.2 ∈ list := by
  induction list generalizing offset with
  | nil => cases h
  | cons piece list ih =>
      rcases List.mem_cons.mp h with rfl | h
      · exact List.mem_cons_self
      · exact List.mem_cons_of_mem _ (ih h)

lemma exists_mem_locate {piece : Piece} (h : piece ∈ list) (offset : Nat) :
    ∃ place, (place, piece) ∈ locate offset list := by
  induction list generalizing offset with
  | nil => cases h
  | cons first list ih =>
      rcases List.mem_cons.mp h with rfl | h
      · exact ⟨offset, List.mem_cons_self⟩
      · obtain ⟨place, hplace⟩ := ih h (offset + first.size)
        exact ⟨place, List.mem_cons_of_mem _ hplace⟩

/-- Pieces stand one behind the other. -/
lemma pairwise_locate (list : List Piece) (offset : Nat) :
    (locate offset list).Pairwise fun located later => located.1 + located.2.size ≤ later.1 := by
  have hle : ∀ (list : List Piece) (offset : Nat), ∀ located ∈ locate offset list,
      offset ≤ located.1 := by
    intro list
    induction list with
    | nil => exact fun _ _ h => absurd h List.not_mem_nil
    | cons piece list ih =>
        intro offset
        exact List.forall_mem_cons.mpr ⟨Nat.le_refl _, fun located h =>
          Nat.le_trans (Nat.le_add_right _ _) (ih _ located h)⟩
  induction list generalizing offset with
  | nil => exact List.Pairwise.nil
  | cons piece list ih => exact List.pairwise_cons.mpr ⟨hle list _, ih _⟩

/-- Every byte belongs to a piece. -/
lemma exists_mem_locate_of_lt {list : List Piece} {offset byte : Nat} (hle : offset ≤ byte)
    (hlt : byte < offset + bytes (list.flatMap Piece.source)) :
    ∃ located ∈ locate offset list, located.1 ≤ byte ∧ byte < located.1 + located.2.size := by
  induction list generalizing offset with
  | nil => exact absurd hlt (Nat.not_lt.mpr hle)
  | cons piece list ih =>
      by_cases hpiece : byte < offset + piece.size
      · exact ⟨(offset, piece), List.mem_cons_self, hle, hpiece⟩
      · rw [List.flatMap_cons, bytes_append, ← Nat.add_assoc] at hlt
        obtain ⟨located, hmem, hbyte⟩ := ih (Nat.not_lt.mp hpiece) hlt
        exact ⟨located, List.mem_cons_of_mem _ hmem, hbyte⟩

/-! ### Tokens and issues -/

/-- The tokens of pieces, the first of which starts at `offset`. -/
def tokensFrom (offset : Nat) (list : List Piece) : List LocatedToken :=
  (locate offset list).filterMap fun located => located.2.token? located.1

/-- The issues of pieces, the first of which starts at `offset`. -/
def issuesFrom (offset : Nat) (list : List Piece) : List Issue :=
  (locate offset list).flatMap fun located => located.2.issues located.1

/-- A scan finds the tokens and the issues of the pieces of a text. -/
lemma tokenize_eq (text : List Char) :
    tokenize text = ⟨tokensFrom 0 (pieces text), issuesFrom 0 (pieces text)⟩ := rfl

lemma tokensFrom_cons (offset : Nat) (piece : Piece) (list : List Piece) :
    tokensFrom offset (piece :: list)
      = (piece.token? offset).toList ++ tokensFrom (offset + piece.size) list := by
  rw [tokensFrom, locate, List.filterMap_cons]
  cases piece.token? offset <;> rfl

lemma issuesFrom_cons (offset : Nat) (piece : Piece) (list : List Piece) :
    issuesFrom offset (piece :: list)
      = piece.issues offset ++ issuesFrom (offset + piece.size) list := rfl

lemma tokensFrom_append (offset : Nat) (first second : List Piece) :
    tokensFrom offset (first ++ second)
      = tokensFrom offset first ++
          tokensFrom (offset + bytes (first.flatMap Piece.source)) second := by
  induction first generalizing offset with
  | nil => rfl
  | cons piece first ih =>
      rw [List.cons_append, tokensFrom_cons, tokensFrom_cons, ih, List.append_assoc,
        List.flatMap_cons, bytes_append, Piece.size, Nat.add_assoc]

lemma issuesFrom_append (offset : Nat) (first second : List Piece) :
    issuesFrom offset (first ++ second)
      = issuesFrom offset first ++
          issuesFrom (offset + bytes (first.flatMap Piece.source)) second := by
  induction first generalizing offset with
  | nil => rfl
  | cons piece first ih =>
      rw [List.cons_append, issuesFrom_cons, issuesFrom_cons, ih, List.append_assoc,
        List.flatMap_cons, bytes_append, Piece.size, Nat.add_assoc]

end FieldSelection.Selection
