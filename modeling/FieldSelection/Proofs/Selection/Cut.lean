import FieldSelection.Proofs.Selection.Balance

/-!
How a text is cut into pieces.

A comma or the end of the text ends a word, a name ends at its parenthesis, and a body ends at
the parenthesis that closes it, or else at the end of the text. A text can be cut in this way
only once.

* `Cut`: the lists of pieces that are cut in this way; `cut_pieces`: the pieces of a text are.
* `pieces_eq_iff`: nothing else is, among all lists of pieces that are written as the text.
-/

namespace FieldSelection.Selection

/-- **How a text is cut**: what may stand in a piece, and which pieces may follow it. -/
inductive Cut : List Piece → Prop where
  /-- The last word runs to the end of the text. -/
  | last {word : List Char} (hcomma : ',' ∉ word) (hopen : '(' ∉ word) : Cut [.word word false]
  /-- A comma ends a word. -/
  | word {word : List Char} {list : List Piece} (hcomma : ',' ∉ word) (hopen : '(' ∉ word)
      (hlist : Cut list) : Cut (.word word true :: list)
  /-- A body is balanced up to the parenthesis that closes it. -/
  | closed {name body : List Char} {list : List Piece} (hcomma : ',' ∉ name) (hopen : '(' ∉ name)
      (hbody : Balanced body) (hlist : Cut list) : Cut (.relation name body true :: list)
  /-- A body in which all closing parentheses match runs to the end of the text. -/
  | unclosed {name body : List Char} {level : Nat} (hcomma : ',' ∉ name) (hopen : '(' ∉ name)
      (hbody : nestAll 0 body = some level) : Cut [.relation name body false]

/-! ### Texts are cut so -/

mutual

/-- A text is cut so inside a word whose characters so far neither end it nor open a body. -/
lemma cut_cutWord {word : List Char} (hcomma : ',' ∉ word) (hopen : '(' ∉ word) :
    ∀ text, Cut (cutWord word text)
  | [] => by
      rw [cutWord]
      exact .last (mt List.mem_reverse.mp hcomma) (mt List.mem_reverse.mp hopen)
  | c :: text => by
      rw [cutWord]
      split
      · exact .word (mt List.mem_reverse.mp hcomma) (mt List.mem_reverse.mp hopen)
          (cut_cutWord List.not_mem_nil List.not_mem_nil text)
      · next hc =>
        split
        · exact cut_cutBody (mt List.mem_reverse.mp hcomma) (mt List.mem_reverse.mp hopen) [] 0
            rfl text
        · next ho =>
          exact cut_cutWord (List.not_mem_cons_of_ne_of_not_mem (Ne.symm hc) hcomma)
            (List.not_mem_cons_of_ne_of_not_mem (Ne.symm ho) hopen) text

/-- A text is cut so inside a body, whose characters so far have led to its level. -/
lemma cut_cutBody {name : List Char} (hcomma : ',' ∉ name) (hopen : '(' ∉ name)
    (body : List Char) (level : Nat) (hbody : nestAll 0 body.reverse = some level) :
    ∀ text, Cut (cutBody name body level text)
  | [] => by
      rw [cutBody]
      exact .unclosed hcomma hopen hbody
  | c :: text => by
      rw [cutBody]
      cases hn : nest level c with
      | none =>
          obtain rfl : level = 0 := level_eq_zero_of_nest hn
          exact .closed hcomma hopen (balanced_iff_nestAll.mpr hbody)
            (cut_cutWord List.not_mem_nil List.not_mem_nil text)
      | some inner =>
          have hstep : nestAll 0 (c :: body).reverse = some inner := by
            rw [List.reverse_cons, nestAll_append, hbody, Option.bind_some, nestAll, hn]
            rfl
          exact cut_cutBody hcomma hopen (c :: body) inner hstep text

end

/-- **The pieces of a text** are cut so. -/
lemma cut_pieces (text : List Char) : Cut (pieces text) :=
  cut_cutWord List.not_mem_nil List.not_mem_nil text

/-! ### And in no other way -/

/-- A word takes in what neither ends it nor opens a body. -/
lemma cutWord_append {inner : List Char} (hc : ',' ∉ inner) (ho : '(' ∉ inner)
    (word rest : List Char) :
    cutWord word (inner ++ rest) = cutWord (inner.reverse ++ word) rest := by
  induction inner generalizing word with
  | nil => rfl
  | cons c inner ih =>
      rw [List.mem_cons, not_or] at hc ho
      rw [List.cons_append, cutWord, if_neg (Ne.symm hc.1), if_neg (Ne.symm ho.1),
        ih hc.2 ho.2, List.reverse_cons, List.append_assoc, List.singleton_append]

/-- A word is cut off at the comma behind it. -/
lemma pieces_word_append {word : List Char} (hc : ',' ∉ word) (ho : '(' ∉ word)
    (rest : List Char) : pieces (word ++ ',' :: rest) = .word word true :: pieces rest := by
  rw [pieces, cutWord_append hc ho, List.append_nil, cutWord, if_pos rfl, List.reverse_reverse,
    pieces]

/-- What stands in front of a parenthesis is the name of the body behind it. -/
lemma pieces_name_append {name : List Char} (hc : ',' ∉ name) (ho : '(' ∉ name)
    (rest : List Char) : pieces (name ++ '(' :: rest) = cutBody name [] 0 rest := by
  rw [pieces, cutWord_append hc ho, List.append_nil, cutWord, if_neg (by decide), if_pos rfl,
    List.reverse_reverse]

/-- Pieces that are cut so are found again in their text. -/
lemma Cut.pieces_eq {list : List Piece} (h : Cut list) :
    pieces (list.flatMap Piece.source) = list := by
  induction h with
  | @last word hcomma hopen =>
      have hcut := cutWord_append hcomma hopen [] []
      rw [List.append_nil, List.append_nil] at hcut
      simp only [Piece.source, pieces, List.flatMap_cons, List.flatMap_nil, Bool.false_eq_true,
        if_false, List.append_nil, hcut, cutWord, List.reverse_reverse]
  | @word word list hcomma hopen _ ih =>
      simp only [List.flatMap_cons, Piece.source, if_true, List.append_assoc,
        List.singleton_append, pieces_word_append hcomma hopen, ih]
  | @closed name body list hcomma hopen hbody _ ih =>
      simp only [List.flatMap_cons, Piece.source, if_true, List.append_assoc, List.cons_append,
        List.nil_append, pieces_name_append hcomma hopen, cutBody_balanced hbody]
      rw [← pieces, ih]
  | @unclosed name body level hcomma hopen hbody =>
      have hcut := cutBody_append hbody name [] []
      rw [List.append_nil, List.append_nil] at hcut
      simp only [List.flatMap_cons, List.flatMap_nil, Piece.source, Bool.false_eq_true, if_false,
        List.append_nil, pieces_name_append hcomma hopen, hcut, cutBody, List.reverse_reverse]

/-- **A text has one cut only**: its pieces are the list that is cut so and written as the
text. -/
theorem pieces_eq_iff {text : List Char} {list : List Piece} :
    pieces text = list ↔ Cut list ∧ list.flatMap Piece.source = text := by
  constructor
  · rintro rfl
    exact ⟨cut_pieces text, flatMap_source_pieces text⟩
  · rintro ⟨hcut, rfl⟩
    exact hcut.pieces_eq

end FieldSelection.Selection
