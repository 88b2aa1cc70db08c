import FieldSelection.Proofs.Selection.Located
import FieldSelection.Proofs.Selection.Word
import FieldSelection.Proofs.Text.Trim

/-!
The tokens of a text, without their places.

What a selection means does not depend on where its tokens stand, so this file
reads them off the pieces alone.

* `tokens`: the tokens of one level; `map_token_tokenize` ties them to the scan.
* `tokens_trim`: blanks around a text are no part of its tokens, as they go into the pieces at
  its ends (`Cut.exists_blank_front`, `Cut.exists_blank_back`).
* `Closed`: the texts that leave nothing open, as balanced ones do (`Balanced.closed`), whose
  parentheses all match (`Balanced.matched`).
* `tokens_append_comma`: behind such a text, a comma starts the tokens of the next
  text, so that reading turns commas into appends (`tokens_join`).
* `tokens_word`, `tokens_relation`: a single word and a single relation.
* `PlainWord`: the words that mean nothing but a name; `PlainWord.tokens_eq` reads
  one back.
-/

namespace FieldSelection.Selection

open FieldSelection.Text

/-- The token of a piece. A blank word is no token. -/
def Piece.reading? : Piece → Option Token
  | .word text _ => if trim text = [] then none else some (classify (trim text))
  | .relation name body _ => some (.relation (.ofList (trim name)) (bodyText body))

/-- The tokens of one level of a selection text. -/
def tokens (text : List Char) : List Token :=
  (pieces text).filterMap Piece.reading?

lemma map_token_token? (piece : Piece) (offset : Nat) :
    (piece.token? offset).map (·.token) = piece.reading? := by
  cases piece with
  | word text ended =>
      rw [Piece.token?, Piece.reading?]
      split <;> rfl
  | relation name body closed => rfl

/-- The scan of a text finds its tokens. -/
lemma map_token_tokenize (text : List Char) :
    (tokenize text).tokens.map (·.token) = tokens text := by
  have key : ∀ (list : List Piece) (offset : Nat),
      (tokensFrom offset list).map (·.token) = list.filterMap Piece.reading? := by
    intro list
    induction list with
    | nil => intro offset; rfl
    | cons piece list ih =>
        intro offset
        rw [tokensFrom_cons, List.map_append, ih, List.filterMap_cons,
          ← map_token_token? piece offset]
        cases piece.token? offset <;> rfl
  exact key (pieces text) 0

/-! ### Blanks around a text -/

lemma balanced_of_isBlank {blanks : List Char} (h : IsBlank blanks) : Balanced blanks :=
  balanced_of_notMem (h.notMem (by decide)) (h.notMem (by decide))

lemma reading?_word_front {blanks : List Char} (h : IsBlank blanks) (text : List Char)
    (ended : Bool) :
    (Piece.word (blanks ++ text) ended).reading? = (Piece.word text ended).reading? := by
  rw [Piece.reading?, Piece.reading?, trim_blank_append h]

lemma reading?_word_back {blanks : List Char} (h : IsBlank blanks) (text : List Char)
    (ended : Bool) :
    (Piece.word (text ++ blanks) ended).reading? = (Piece.word text ended).reading? := by
  rw [Piece.reading?, Piece.reading?, trim_append_blank h]

lemma reading?_relation_front {blanks : List Char} (h : IsBlank blanks)
    (name body : List Char) (closed : Bool) :
    (Piece.relation (blanks ++ name) body closed).reading?
      = (Piece.relation name body closed).reading? := by
  rw [Piece.reading?, Piece.reading?, trim_blank_append h]

lemma reading?_relation_back {blanks : List Char} (h : IsBlank blanks)
    (name body : List Char) (closed : Bool) :
    (Piece.relation name (body ++ blanks) closed).reading?
      = (Piece.relation name body closed).reading? := by
  rw [Piece.reading?, Piece.reading?, bodyText, bodyText, trim_append_blank h]

/-- Blanks in front of a text go into its first piece, where they are not read. -/
lemma Cut.exists_blank_front {list : List Piece} (hcut : Cut list) {blanks : List Char}
    (h : IsBlank blanks) :
    ∃ list', Cut list' ∧ list'.flatMap Piece.source = blanks ++ list.flatMap Piece.source ∧
      list'.filterMap Piece.reading? = list.filterMap Piece.reading? := by
  have hblank : ∀ {text : List Char} {c : Char}, isBlank c = false → c ∉ text →
      c ∉ blanks ++ text :=
    fun hc hmem => List.not_mem_append (h.notMem hc) hmem
  cases hcut with
  | @last word hcomma hopen =>
      refine ⟨[.word (blanks ++ word) false], .last (hblank rfl hcomma) (hblank rfl hopen),
        by simp [Piece.source], ?_⟩
      rw [List.filterMap_cons, List.filterMap_cons, reading?_word_front h]
  | @word word list hcomma hopen hlist =>
      refine ⟨.word (blanks ++ word) true :: list,
        .word (hblank rfl hcomma) (hblank rfl hopen) hlist, by simp [Piece.source], ?_⟩
      rw [List.filterMap_cons, List.filterMap_cons, reading?_word_front h]
  | @closed name body list hcomma hopen hbody hlist =>
      refine ⟨.relation (blanks ++ name) body true :: list,
        .closed (hblank rfl hcomma) (hblank rfl hopen) hbody hlist, by simp [Piece.source], ?_⟩
      rw [List.filterMap_cons, List.filterMap_cons, reading?_relation_front h]
  | @unclosed name body level hcomma hopen hbody =>
      refine ⟨[.relation (blanks ++ name) body false],
        .unclosed (hblank rfl hcomma) (hblank rfl hopen) hbody, by simp [Piece.source], ?_⟩
      rw [List.filterMap_cons, List.filterMap_cons, reading?_relation_front h]

/-- Blanks behind a text go into its last piece, where they are not read. -/
lemma Cut.exists_blank_back {list : List Piece} (hcut : Cut list) {blanks : List Char}
    (h : IsBlank blanks) :
    ∃ list', Cut list' ∧ list'.flatMap Piece.source = list.flatMap Piece.source ++ blanks ∧
      list'.filterMap Piece.reading? = list.filterMap Piece.reading? := by
  induction hcut with
  | @last word hcomma hopen =>
      refine ⟨[.word (word ++ blanks) false],
        .last (List.not_mem_append hcomma (h.notMem rfl))
          (List.not_mem_append hopen (h.notMem rfl)), by simp [Piece.source], ?_⟩
      rw [List.filterMap_cons, List.filterMap_cons, reading?_word_back h]
  | @word word list hcomma hopen _ ih =>
      obtain ⟨list', hcut, hsource, hreading⟩ := ih
      refine ⟨.word word true :: list', .word hcomma hopen hcut, ?_, ?_⟩
      · rw [List.flatMap_cons, List.flatMap_cons, hsource, List.append_assoc]
      · rw [List.filterMap_cons, List.filterMap_cons, hreading]
  | @closed name body list hcomma hopen hbody _ ih =>
      obtain ⟨list', hcut, hsource, hreading⟩ := ih
      refine ⟨.relation name body true :: list', .closed hcomma hopen hbody hcut, ?_, ?_⟩
      · rw [List.flatMap_cons, List.flatMap_cons, hsource, List.append_assoc]
      · rw [List.filterMap_cons, List.filterMap_cons, hreading]
  | @unclosed name body level hcomma hopen hbody =>
      have hbody' : nestAll 0 (body ++ blanks) = some level := by
        rw [nestAll_append, hbody, Option.bind_some, (balanced_of_isBlank h).nestAll_eq]
      refine ⟨[.relation name (body ++ blanks) false], .unclosed hcomma hopen hbody',
        by simp [Piece.source], ?_⟩
      rw [List.filterMap_cons, List.filterMap_cons, reading?_relation_back h]

lemma tokens_blank_append {blanks : List Char} (h : IsBlank blanks) (text : List Char) :
    tokens (blanks ++ text) = tokens text := by
  obtain ⟨list, hcut, hsource, hreading⟩ := (cut_pieces text).exists_blank_front h
  rw [flatMap_source_pieces] at hsource
  rw [tokens, pieces_eq_iff.mpr ⟨hcut, hsource⟩, hreading, tokens]

lemma tokens_append_blank {blanks : List Char} (h : IsBlank blanks) (text : List Char) :
    tokens (text ++ blanks) = tokens text := by
  obtain ⟨list, hcut, hsource, hreading⟩ := (cut_pieces text).exists_blank_back h
  rw [flatMap_source_pieces] at hsource
  rw [tokens, pieces_eq_iff.mpr ⟨hcut, hsource⟩, hreading, tokens]

/-- **Blanks around a text are no part of its tokens.** -/
lemma tokens_trim (text : List Char) : tokens (trim text) = tokens text := by
  obtain ⟨front, back, hfront, hback, h⟩ := exists_blank_around text
  conv_rhs => rw [h, tokens_blank_append hfront, tokens_append_blank hback]

/-! ### Commas -/

/-- Whether a piece has its closing parenthesis; words have none to miss. -/
def Piece.isClosed : Piece → Bool
  | .word _ _ => true
  | .relation _ _ closed => closed

/-- A text that leaves no parenthesis open, so that what follows it is read on its
own. -/
def Closed (text : List Char) : Prop :=
  ∀ piece ∈ pieces text, piece.isClosed = true

instance (text : List Char) : Decidable (Closed text) :=
  inferInstanceAs (Decidable (∀ piece ∈ pieces text, piece.isClosed = true))

/-- Whether all parentheses of a piece match: those in the body among each other, and no
further ones are there but the two around the body. -/
def Piece.Matched : Piece → Prop
  | .word text _ => ')' ∉ text
  | .relation name body closed => ')' ∉ name ∧ Balanced body ∧ closed = true

lemma Piece.Matched.isClosed_eq {piece : Piece} (h : piece.Matched) : piece.isClosed = true := by
  cases piece with
  | word text ended => rfl
  | relation name body closed => exact h.2.2

/-- A word in which all closing parentheses match has none of them. -/
lemma eq_zero_of_nestAll_word {word : List Char} {level : Nat} (hopen : '(' ∉ word)
    (h : nestAll 0 word = some level) : ')' ∉ word ∧ level = 0 := by
  have hcount := (nestAll_eq_some_iff.mp h).2
  rw [List.count_eq_zero_of_not_mem hopen] at hcount
  exact ⟨List.count_eq_zero.mp (by omega), by omega⟩

/-- Pieces whose text closes all it opens, and no more, have only parentheses that match. -/
lemma Cut.matched {list : List Piece} (hcut : Cut list)
    (h : nestAll 0 (list.flatMap Piece.source) = some 0) : ∀ piece ∈ list, piece.Matched := by
  have hcomma : ∀ level rest, nestAll level (',' :: rest) = nestAll level rest := fun _ _ => rfl
  have hopened : ∀ rest, nestAll 0 ('(' :: rest) = nestAll 1 rest := fun _ => rfl
  have hclosed : ∀ rest, nestAll 1 (')' :: rest) = nestAll 0 rest := fun _ => rfl
  induction hcut with
  | @last word _ hopen =>
      rw [List.flatMap_singleton, Piece.source, if_neg Bool.false_ne_true, List.append_nil] at h
      exact List.forall_mem_singleton.mpr (eq_zero_of_nestAll_word hopen h).1
  | @word word list _ hopen _ ih =>
      rw [List.flatMap_cons, Piece.source, if_pos rfl, List.append_assoc, nestAll_append,
        Option.bind_eq_some_iff] at h
      obtain ⟨level, hword, hrest⟩ := h
      obtain ⟨hclose, rfl⟩ := eq_zero_of_nestAll_word hopen hword
      rw [List.singleton_append, hcomma] at hrest
      exact List.forall_mem_cons.mpr ⟨hclose, ih hrest⟩
  | @closed name body list _ hopen hbody _ ih =>
      rw [List.flatMap_cons, Piece.source, if_pos rfl, List.append_assoc, nestAll_append,
        Option.bind_eq_some_iff] at h
      obtain ⟨level, hname, hrest⟩ := h
      obtain ⟨hclose, rfl⟩ := eq_zero_of_nestAll_word hopen hname
      rw [List.cons_append, hopened, List.append_assoc, nestAll_append, hbody.nestAll_eq,
        Option.bind_some, List.singleton_append, hclosed] at hrest
      exact List.forall_mem_cons.mpr ⟨⟨hclose, hbody, rfl⟩, ih hrest⟩
  | @unclosed name body level _ hopen hbody =>
      rw [List.flatMap_singleton, Piece.source, nestAll_append, Option.bind_eq_some_iff] at h
      obtain ⟨inner, hname, hrest⟩ := h
      obtain ⟨-, rfl⟩ := eq_zero_of_nestAll_word hopen hname
      rw [hopened, if_neg Bool.false_ne_true, List.append_nil, nestAll_add hbody 1] at hrest
      cases hrest

/-- **Balanced texts** have only parentheses that match. -/
lemma Balanced.matched {text : List Char} (h : Balanced text) :
    ∀ piece ∈ pieces text, piece.Matched :=
  (cut_pieces text).matched (by rw [flatMap_source_pieces, h.nestAll_eq])

/-- Balanced texts leave nothing open. -/
lemma Balanced.closed {text : List Char} (h : Balanced text) : Closed text :=
  fun piece hp => (h.matched piece hp).isClosed_eq

/-- The last piece of a list that leaves nothing open is a word. In its place, any other pieces
may stand. -/
lemma Cut.exists_last {list : List Piece} (hcut : Cut list)
    (hclosed : ∀ piece ∈ list, piece.isClosed = true) :
    ∃ start last, list = start ++ [.word last false] ∧ ',' ∉ last ∧ '(' ∉ last ∧
      ∀ rest, Cut rest → Cut (start ++ rest) := by
  induction hcut with
  | @last word hcomma hopen => exact ⟨[], word, rfl, hcomma, hopen, fun _ hrest => hrest⟩
  | @word word list hcomma hopen _ ih =>
      obtain ⟨start, last, rfl, hlast, hlast', hrest⟩ := ih (List.forall_mem_cons.mp hclosed).2
      exact ⟨.word word true :: start, last, rfl, hlast, hlast',
        fun rest h => .word hcomma hopen (hrest rest h)⟩
  | @closed name body list hcomma hopen hbody _ ih =>
      obtain ⟨start, last, rfl, hlast, hlast', hrest⟩ := ih (List.forall_mem_cons.mp hclosed).2
      exact ⟨.relation name body true :: start, last, rfl, hlast, hlast',
        fun rest h => .closed hcomma hopen hbody (hrest rest h)⟩
  | @unclosed name body level _ _ _ => cases hclosed _ (List.mem_singleton_self _)

/-- What stands behind a text that leaves nothing open is cut together with its last piece. -/
lemma Closed.exists_last {text : List Char} (h : Closed text) :
    ∃ start last, pieces text = start ++ [.word last false] ∧ ',' ∉ last ∧ '(' ∉ last ∧
      ∀ rest list, Cut list → list.flatMap Piece.source = last ++ rest →
        pieces (text ++ rest) = start ++ list := by
  obtain ⟨start, last, hlast, hcomma, hopen, hrest⟩ := (cut_pieces text).exists_last h
  refine ⟨start, last, hlast, hcomma, hopen, fun rest list hcut hsource =>
    pieces_eq_iff.mpr ⟨hrest list hcut, ?_⟩⟩
  conv_rhs => rw [← flatMap_source_pieces text, hlast]
  simp [Piece.source, hsource]

/-- **A comma ends the last piece** of a text that leaves nothing open, and the pieces of the
text behind it follow. -/
lemma pieces_append_comma {text : List Char} (h : Closed text) (rest : List Char) :
    ∃ start last, pieces text = start ++ [.word last false] ∧
      pieces (text ++ ',' :: rest) = start ++ .word last true :: pieces rest := by
  obtain ⟨start, last, hlast, hcomma, hopen, happend⟩ := h.exists_last
  refine ⟨start, last, hlast, happend _ _ (.word hcomma hopen (cut_pieces rest)) ?_⟩
  rw [List.flatMap_cons, flatMap_source_pieces]
  simp [Piece.source]

/-- **A comma starts the next tokens** behind a text that leaves nothing open. -/
lemma tokens_append_comma {text : List Char} (h : Closed text) (rest : List Char) :
    tokens (text ++ ',' :: rest) = tokens text ++ tokens rest := by
  obtain ⟨start, last, h1, h2⟩ := pieces_append_comma h rest
  have hlast : (Piece.word last true).reading? = (Piece.word last false).reading? := rfl
  rw [tokens, tokens, tokens, h1, h2, List.filterMap_append,
    List.filterMap_append, List.filterMap_cons, List.filterMap_cons, hlast]
  cases (Piece.word last false).reading? <;> simp

lemma Closed.append_comma {text rest : List Char} (h : Closed text) (hr : Closed rest) :
    Closed (text ++ ',' :: rest) := by
  obtain ⟨start, last, h1, h2⟩ := pieces_append_comma h rest
  intro piece hp
  rw [h2, List.mem_append, List.mem_cons] at hp
  rcases hp with hp | rfl | hp
  · exact h piece (by rw [h1]; simp [hp])
  · rfl
  · exact hr piece hp

/-- Blanks behind a text leave nothing open. -/
lemma Closed.append_blank {text blanks : List Char} (h : Closed text) (hblank : IsBlank blanks) :
    Closed (text ++ blanks) := by
  obtain ⟨start, last, hlast, hcomma, hopen, happend⟩ := h.exists_last
  have hcut : Cut [.word (last ++ blanks) false] :=
    .last (List.not_mem_append hcomma (hblank.notMem rfl))
      (List.not_mem_append hopen (hblank.notMem rfl))
  have hpieces : pieces (text ++ blanks) = start ++ [.word (last ++ blanks) false] :=
    happend _ _ hcut (by simp [Piece.source])
  intro piece hp
  rw [hpieces, List.mem_append, List.mem_singleton] at hp
  rcases hp with hp | rfl
  · exact h piece (by rw [hlast]; simp [hp])
  · rfl

/-! ### Single tokens -/

lemma pieces_word {word : List Char} (hc : ',' ∉ word) (ho : '(' ∉ word) :
    pieces word = [.word word false] :=
  pieces_eq_iff.mpr ⟨.last hc ho, by simp [Piece.source]⟩

/-- A text without commas and opening parentheses is one word. -/
lemma tokens_word {word : List Char} (hc : ',' ∉ word) (ho : '(' ∉ word)
    (hb : trim word ≠ []) : tokens word = [classify (trim word)] := by
  rw [tokens, pieces_word hc ho, List.filterMap_cons, Piece.reading?, if_neg hb]
  rfl

lemma closed_word {word : List Char} (hc : ',' ∉ word) (ho : '(' ∉ word) : Closed word := by
  intro piece hp
  rw [pieces_word hc ho, List.mem_singleton] at hp
  rw [hp]
  rfl

lemma pieces_relation {name body : List Char} (hc : ',' ∉ name) (ho : '(' ∉ name)
    (hb : Balanced body) :
    pieces (name ++ '(' :: (body ++ [')'])) = [.relation name body true, .word [] false] :=
  pieces_eq_iff.mpr ⟨.closed hc ho hb (.last List.not_mem_nil List.not_mem_nil),
    by simp [Piece.source]⟩

/-- A name with a balanced body in parentheses is one relation. -/
lemma tokens_relation {name body : List Char} (hc : ',' ∉ name) (ho : '(' ∉ name)
    (hb : Balanced body) :
    tokens (name ++ '(' :: (body ++ [')']))
      = [.relation (.ofList (trim name)) (bodyText body)] := by
  rw [tokens, pieces_relation hc ho hb]
  rfl

lemma closed_relation {name body : List Char} (hc : ',' ∉ name) (ho : '(' ∉ name)
    (hb : Balanced body) : Closed (name ++ '(' :: (body ++ [')'])) := by
  intro piece hp
  rw [pieces_relation hc ho hb] at hp
  simp only [List.mem_cons, List.not_mem_nil, or_false] at hp
  rcases hp with rfl | rfl <;> rfl

/-- Texts that leave nothing open, joined by commas, have their tokens in order. -/
lemma tokens_join {parts : List (List Char)} (h : ∀ part ∈ parts, Closed part) :
    tokens (join ',' parts) = parts.flatMap tokens ∧ Closed (join ',' parts) := by
  induction parts with
  | nil => exact ⟨rfl, closed_word (by simp [join]) (by simp [join])⟩
  | cons part parts ih =>
      have hpart := h part (by simp)
      obtain ⟨htokens, hrest⟩ := ih fun p hp => h p (by simp [hp])
      cases parts with
      | nil => exact ⟨by simp [join], hpart⟩
      | cons next parts =>
          rw [join, tokens_append_comma hpart, htokens, List.flatMap_cons]
          · exact ⟨rfl, hpart.append_comma hrest⟩
          · simp

/-! ### Words with a meaning -/

/-- A text that is `all` but for case and blanks has one token. -/
lemma tokens_of_isAll {text : List Char} (h : isAll (trim text) = true) :
    tokens text = [.all] := by
  have hne : trim text ≠ [] := by
    intro h0
    rw [h0] at h
    cases h
  have hc : ',' ∉ trim text := notMem_of_isAll h (by decide)
  have ho : '(' ∉ trim text := notMem_of_isAll h (by decide)
  rw [← tokens_trim, tokens_word hc ho (by rwa [trim_trim]), trim_trim, classify_of_isAll h]

/-- A blank body reads as `all`, and any other body as it is. -/
lemma tokens_bodyText (body : List Char) :
    tokens (bodyText body).toList = if IsBlank body then [.all] else tokens body := by
  by_cases h : IsBlank body
  · rw [if_pos h, bodyText, if_pos h.trim_eq_nil]
    exact tokens_of_isAll (by decide)
  · rw [if_neg h, bodyText, if_neg (mt trim_eq_nil_iff.mp h), String.toList_ofList, tokens_trim]

/-- **Plain words** mean nothing but a name: they have no blanks at their ends, none
of the characters with a meaning, no dash in front, and they are not `all`. -/
structure PlainWord (word : List Char) : Prop where
  ne_nil : word ≠ []
  trim_eq : trim word = word
  comma : ',' ∉ word
  opening : '(' ∉ word
  closing : ')' ∉ word
  equals : '=' ∉ word
  dash : word.head? ≠ some '-'
  notAll : isAll word = false

instance (word : List Char) : Decidable (PlainWord word) :=
  decidable_of_iff
    (word ≠ [] ∧ trim word = word ∧ ',' ∉ word ∧ '(' ∉ word ∧ ')' ∉ word ∧ '=' ∉ word ∧
      word.head? ≠ some '-' ∧ isAll word = false)
    ⟨fun ⟨h1, h2, h3, h4, h5, h6, h7, h8⟩ => ⟨h1, h2, h3, h4, h5, h6, h7, h8⟩,
      fun ⟨h1, h2, h3, h4, h5, h6, h7, h8⟩ => ⟨h1, h2, h3, h4, h5, h6, h7, h8⟩⟩

lemma PlainWord.ne_empty {name : String} (h : PlainWord name.toList) : name ≠ "" := by
  rintro rfl
  exact h.ne_nil rfl

/-- A plain word names a field. -/
lemma PlainWord.classify_eq {word : List Char} (h : PlainWord word) :
    classify word = .field (.ofList word) := by
  refine classify_name h.notAll h.dash ?_
  rw [List.count_eq_zero_of_not_mem h.equals]
  exact Nat.zero_ne_one

lemma PlainWord.tokens_eq {word : List Char} (h : PlainWord word) :
    tokens word = [.field (.ofList word)] := by
  rw [tokens_word h.comma h.opening (by rw [h.trim_eq]; exact h.ne_nil), h.trim_eq,
    h.classify_eq]

lemma PlainWord.balanced {word : List Char} (h : PlainWord word) : Balanced word :=
  balanced_of_notMem h.opening h.closing

lemma PlainWord.closed {word : List Char} (h : PlainWord word) : Closed word :=
  closed_word h.comma h.opening

end FieldSelection.Selection
