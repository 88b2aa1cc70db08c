import FieldSelection.Proofs.Selection.Reading

/-!
Texts with a comma between them.

A comma outside of all parentheses ends what a scan has read, and it starts anew behind it. So a
text that leaves nothing open, a comma and a second text are scanned like the two texts, but for
the places in the second one.

* `LocatedToken.shift`, `Issue.shift`: what a scan finds, further to the right.
* `tokensFrom_add`, `issuesFrom_add`: pieces further to the right have their tokens and their
  issues there.
* `closed_of_forall_notMem_issues`: a text leaves nothing open if its scan does not say so.
* `tokenize_append_comma`: the scan of two texts with a comma between them.
-/

namespace FieldSelection.Selection

open FieldSelection.Text

/-! ### Further to the right -/

/-- A token, `base` bytes further to the right. -/
def LocatedToken.shift (base : Nat) (token : LocatedToken) : LocatedToken where
  token := token.token
  span := token.span.shift base
  bodyOffset := token.bodyOffset.map (base + ·)

/-- An issue, `base` bytes further to the right. -/
def Issue.shift (base : Nat) : Issue → Issue
  | .unmatchedOpen offset => .unmatchedOpen (base + offset)
  | .strayClose offset => .strayClose (base + offset)

variable (base offset : Nat)

/-- The token of a piece that is further to the right. -/
lemma Piece.token?_add (piece : Piece) :
    piece.token? (base + offset) = (piece.token? offset).map (·.shift base) := by
  cases piece with
  | word text ended =>
      rw [token?, token?]
      split
      · rfl
      · rw [Option.map_some, LocatedToken.shift, Span.shift, Nat.add_assoc]
        rfl
  | relation name body closed =>
      simp only [token?, Option.map_some, LocatedToken.shift, Span.shift, Nat.add_assoc]

lemma strayCloses_add (text : List Char) :
    strayCloses (base + offset) text = (strayCloses offset text).map (·.shift base) := by
  induction text generalizing offset with
  | nil => rfl
  | cons c text ih =>
      rw [strayCloses, strayCloses, Nat.add_assoc, ih]
      split <;> rfl

/-- The issues of a piece that is further to the right. -/
lemma Piece.issues_add (piece : Piece) :
    piece.issues (base + offset) = (piece.issues offset).map (·.shift base) := by
  cases piece with
  | word text ended => exact strayCloses_add base offset text
  | relation name body closed =>
      rw [issues, issues, strayCloses_add, List.map_append, Nat.add_assoc]
      cases closed <;> rfl

/-- The tokens of pieces that are further to the right. -/
lemma tokensFrom_add (list : List Piece) :
    tokensFrom (base + offset) list = (tokensFrom offset list).map (·.shift base) := by
  induction list generalizing offset with
  | nil => rfl
  | cons piece list ih =>
      rw [tokensFrom_cons, tokensFrom_cons, Piece.token?_add, Nat.add_assoc, ih, List.map_append]
      cases piece.token? offset <;> rfl

/-- The issues of pieces that are further to the right. -/
lemma issuesFrom_add (list : List Piece) :
    issuesFrom (base + offset) list = (issuesFrom offset list).map (·.shift base) := by
  induction list generalizing offset with
  | nil => rfl
  | cons piece list ih =>
      rw [issuesFrom_cons, issuesFrom_cons, Piece.issues_add, Nat.add_assoc, ih, List.map_append]

/-! ### Texts one behind the other -/

/-- A text leaves nothing open if its scan does not say so. -/
lemma closed_of_forall_notMem_issues {text : List Char}
    (h : ∀ place, Issue.unmatchedOpen place ∉ (tokenize text).issues) : Closed text := by
  intro piece hpiece
  obtain ⟨place, hlocated⟩ := exists_mem_locate hpiece 0
  match piece with
  | .word _ _ | .relation _ _ true => rfl
  | .relation name body false =>
      refine absurd (List.mem_flatMap.mpr ⟨_, hlocated, ?_⟩) (h (place + bytes name))
      exact List.mem_append_right _ (List.mem_singleton_self _)

/-- **Scanning turns commas into appends**: behind a text without an unmatched opening parenthesis,
a comma and a further text add the tokens and the issues of that text, as much further to the right
as the first text and the comma are long. -/
theorem tokenize_append_comma {text : List Char}
    (h : ∀ place, Issue.unmatchedOpen place ∉ (tokenize text).issues) (rest : List Char) :
    tokenize (text ++ ',' :: rest) =
      { tokens := (tokenize text).tokens ++
          (tokenize rest).tokens.map (·.shift (bytes text + 1))
        issues := (tokenize text).issues ++
          (tokenize rest).issues.map (·.shift (bytes text + 1)) } := by
  obtain ⟨start, last, hpieces, happend⟩ :=
    pieces_append_comma (closed_of_forall_notMem_issues h) rest
  have hsource : text = start.flatMap Piece.source ++ last := by
    rw [← flatMap_source_pieces text, hpieces]
    simp [Piece.source]
  have hplace : bytes (start.flatMap Piece.source) + (Piece.word last true).size
      = bytes text + 1 := by
    rw [hsource, bytes_append, Piece.size, Piece.source, if_pos rfl, bytes_append, Nat.add_assoc]
    rfl
  -- the comma makes no difference to the token and the issues of the last word
  have htoken : ∀ place,
      (Piece.word last true).token? place = (Piece.word last false).token? place :=
    fun _ => rfl
  have hissues : ∀ place,
      (Piece.word last true).issues place = (Piece.word last false).issues place :=
    fun _ => rfl
  simp only [tokenize_eq, happend, hpieces, tokensFrom_append, issuesFrom_append, tokensFrom_cons,
    issuesFrom_cons, htoken, hissues, Nat.zero_add, hplace, List.append_assoc]
  rw [← Nat.add_zero (bytes text + 1), tokensFrom_add, issuesFrom_add]
  rfl

/-- Closing parentheses without a match on both sides, text behind a body, and a body that is not
closed. -/
theorem tokenize_append_comma_meadow :
    (tokenize "é )b, c(d,(é)) e)".toList).issues = [.strayClose 3, .strayClose 18] ∧
      tokenize "é )b, c(d,(é)) e),)f ,, g(h".toList =
        { tokens := (tokenize "é )b, c(d,(é)) e)".toList).tokens ++
            (tokenize ")f ,, g(h".toList).tokens.map (·.shift 20)
          issues := [.strayClose 3, .strayClose 18, .strayClose 20, .unmatchedOpen 27] } := by
  have hissues : (tokenize "é )b, c(d,(é)) e)".toList).issues
      = [.strayClose 3, .strayClose 18] := by
    decide
  have hrest : (tokenize ")f ,, g(h".toList).issues = [.strayClose 0, .unmatchedOpen 7] := by
    decide
  have htext : "é )b, c(d,(é)) e),)f ,, g(h".toList
      = "é )b, c(d,(é)) e)".toList ++ ',' :: ")f ,, g(h".toList := by
    decide
  have hbytes : bytes "é )b, c(d,(é)) e)".toList + 1 = 20 := by decide
  have hopen : ∀ place,
      Issue.unmatchedOpen place ∉ (tokenize "é )b, c(d,(é)) e)".toList).issues := by
    rw [hissues]
    simp
  have happend := tokenize_append_comma hopen ")f ,, g(h".toList
  rw [hbytes, hissues, hrest, ← htext] at happend
  exact ⟨hissues, happend⟩

end FieldSelection.Selection
