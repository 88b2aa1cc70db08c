import FieldSelection.Proofs.Selection.Reading

/-!
Texts with one more token.

A part is put into a selection text where one token ends and the next one starts, or into the
body of a relation, at any depth. Then the tokens of the text are as before, with those of the
part between them.

* `Spells`: the texts of one token.
* `Fresh`: the texts behind which a new token starts; `Fresh.tokens_append`.
* `Inserts`: a text without and with a part between its tokens; `Inserts.exists_tokens` reads
  both.
* `InsertsBelow`: the same for the body at the end of a path of relations.
* `AddsBelow`: tokens without and with one more token there; `InsertsBelow.addsBelow` ties the
  texts to the tokens, by induction on the path.
-/

namespace FieldSelection.Selection

open FieldSelection.Text

/-! ### Texts of one token -/

/-- The texts of one token: a word, and a name with a balanced body. -/
inductive Spells : List Char → Token → Prop where
  | word {text : List Char} (hcomma : ',' ∉ text) (hopen : '(' ∉ text) (hblank : ¬ IsBlank text) :
      Spells text (classify (trim text))
  | relation {name body : List Char} (hcomma : ',' ∉ name) (hopen : '(' ∉ name)
      (hbody : Balanced body) :
      Spells (name ++ '(' :: (body ++ [')'])) (.relation (.ofList (trim name)) (bodyText body))

lemma Spells.tokens_eq {text : List Char} {token : Token} (h : Spells text token) :
    tokens text = [token] := by
  cases h with
  | word hcomma hopen hblank => exact tokens_word hcomma hopen (mt trim_eq_nil_iff.mp hblank)
  | relation hcomma hopen hbody => exact tokens_relation hcomma hopen hbody

lemma Spells.closed {text : List Char} {token : Token} (h : Spells text token) : Closed text := by
  cases h with
  | word hcomma hopen _ => exact closed_word hcomma hopen
  | relation hcomma hopen hbody => exact closed_relation hcomma hopen hbody

/-! ### Where tokens start -/

lemma tokens_nil : tokens [] = [] :=
  rfl

lemma tokens_of_isBlank {blanks : List Char} (h : IsBlank blanks) : tokens blanks = [] := by
  rw [← tokens_trim, h.trim_eq_nil, tokens_nil]

/-- A comma in front of a text ends no token. -/
lemma tokens_comma_append (rest : List Char) : tokens (',' :: rest) = tokens rest := by
  have hnil : Closed [] := closed_word List.not_mem_nil List.not_mem_nil
  exact tokens_append_comma hnil rest

/-- A relation is cut off as a whole, and a new token starts behind it. -/
lemma tokens_relation_append {name body : List Char} (hcomma : ',' ∉ name) (hopen : '(' ∉ name)
    (hbody : Balanced body) (rest : List Char) :
    tokens (name ++ '(' :: (body ++ ')' :: rest))
      = .relation (.ofList (trim name)) (bodyText body) :: tokens rest := by
  rw [tokens, pieces_name_append hcomma hopen, cutBody_balanced hbody]
  rfl

/-- A body that is not closed runs to the end of the text. -/
lemma tokens_relation_open {name body : List Char} {level : Nat} (hcomma : ',' ∉ name)
    (hopen : '(' ∉ name) (hbody : nestAll 0 body = some level) :
    tokens (name ++ '(' :: body) = [.relation (.ofList (trim name)) (bodyText body)] := by
  have hcut := cutBody_append hbody name [] []
  rw [List.append_nil, List.append_nil] at hcut
  rw [tokens, pieces_name_append hcomma hopen, hcut, cutBody, List.reverse_reverse]
  rfl

/-- The texts behind which a new token starts: behind a comma or a relation, or with nothing but
blanks in front. -/
inductive Fresh : List Char → Prop where
  | nil : Fresh []
  | comma {text : List Char} (h : Closed text) : Fresh (text ++ [','])
  | relation {front name body : List Char} (hfront : Fresh front) (hcomma : ',' ∉ name)
      (hopen : '(' ∉ name) (hbody : Balanced body) :
      Fresh (front ++ (name ++ '(' :: (body ++ [')'])))
  | blank {front blanks : List Char} (hfront : Fresh front) (hblank : IsBlank blanks) :
      Fresh (front ++ blanks)

/-- **A new token starts** behind such a text. -/
lemma Fresh.tokens_append {front : List Char} (h : Fresh front) (rest : List Char) :
    tokens (front ++ rest) = tokens front ++ tokens rest := by
  induction h generalizing rest with
  | nil => rfl
  | comma h =>
      rw [List.append_assoc, List.singleton_append, tokens_append_comma h, tokens_append_comma h,
        tokens_nil, List.append_nil]
  | relation hfront hcomma hopen hbody ih =>
      simp only [List.append_assoc, List.cons_append, List.nil_append, ih,
        tokens_relation hcomma hopen hbody, tokens_relation_append hcomma hopen hbody]
  | blank hfront hblank ih =>
      rw [List.append_assoc, ih, ih, tokens_blank_append hblank, tokens_of_isBlank hblank,
        List.append_nil]

/-! ### One more part -/

/-- A text, and the text with one more part between its tokens: ahead of a token, between two
tokens, behind all of them, and alone in front of a comma or of the end of the text, where so far
there was no token. -/
inductive Inserts (part : List Char) : List Char → List Char → Prop where
  | ahead {front : List Char} (hfront : Fresh front) (rest : List Char) :
      Inserts part (front ++ rest) (front ++ (part ++ ',' :: rest))
  | between {front : List Char} (hfront : Fresh front) (rest : List Char) :
      Inserts part (front ++ rest) (front ++ ',' :: (part ++ ',' :: rest))
  | behind {text : List Char} (h : Closed text) : Inserts part text (text ++ ',' :: part)
  | alone {front blanks rest : List Char} (hfront : Fresh front) (hblank : IsBlank blanks)
      (hrest : rest = [] ∨ ∃ next, rest = ',' :: next) :
      Inserts part (front ++ (blanks ++ rest)) (front ++ (part ++ (blanks ++ rest)))

namespace Inserts

variable {part text text' : List Char}

/-- **The tokens of the part** stand between those of the text. -/
lemma exists_tokens (hpart : Closed part) (h : Inserts part text text') :
    ∃ pre post, tokens text = pre ++ post ∧ tokens text' = pre ++ (tokens part ++ post) := by
  cases h with
  | @ahead front hfront rest =>
      refine ⟨tokens front, tokens rest, hfront.tokens_append rest, ?_⟩
      rw [hfront.tokens_append, tokens_append_comma hpart]
  | @between front hfront rest =>
      refine ⟨tokens front, tokens rest, hfront.tokens_append rest, ?_⟩
      rw [hfront.tokens_append, tokens_comma_append, tokens_append_comma hpart]
  | behind h =>
      refine ⟨tokens text, [], (List.append_nil _).symm, ?_⟩
      rw [tokens_append_comma h, List.append_nil]
  | @alone front blanks rest hfront hblank hrest =>
      refine ⟨tokens front, tokens (blanks ++ rest), hfront.tokens_append _, ?_⟩
      rw [hfront.tokens_append, tokens_blank_append hblank]
      obtain rfl | ⟨next, rfl⟩ := hrest
      · rw [List.append_nil, tokens_append_blank hblank, tokens_nil, List.append_nil]
      · rw [← List.append_assoc, tokens_append_comma (hpart.append_blank hblank),
          tokens_append_blank hblank, tokens_comma_append]

/-- Nothing of the text is lost. -/
lemma subset (h : Inserts part text text') : text ⊆ text' := by
  cases h <;> intro c hc <;> simp only [List.mem_append, List.mem_cons] at hc ⊢ <;> tauto

/-- A balanced part leads to no other nesting level. -/
lemma nestAll_eq (hpart : Balanced part) (h : Inserts part text text') (level : Nat) :
    nestAll level text' = nestAll level text := by
  have hcomma : ∀ level rest, nestAll level (',' :: rest) = nestAll level rest := fun _ _ => rfl
  cases h <;>
    simp only [nestAll_append, hcomma, hpart.nestAll_eq, Option.bind_some, Option.bind_fun_some]

end Inserts

/-! ### One more part in a body -/

/-- A text, and the text with one more part in the body at the end of a path of relations. The
body is not blank, since a blank one reads as `all`; it may be one that runs to the end of the
text. -/
inductive InsertsBelow (part : List Char) : List String → List Char → List Char → Prop where
  | here {text text' : List Char} (h : Inserts part text text') : InsertsBelow part [] text text'
  | closed {front name body body' : List Char} {path : List String} (hfront : Fresh front)
      (hcomma : ',' ∉ name) (hopen : '(' ∉ name) (hbody : Balanced body) (hblank : ¬ IsBlank body)
      (hpart : Balanced part) (h : InsertsBelow part path body body') (rest : List Char) :
      InsertsBelow part (.ofList (trim name) :: path)
        (front ++ (name ++ '(' :: (body ++ ')' :: rest)))
        (front ++ (name ++ '(' :: (body' ++ ')' :: rest)))
  | unclosed {front name body body' : List Char} {path : List String} {level : Nat}
      (hfront : Fresh front) (hcomma : ',' ∉ name) (hopen : '(' ∉ name)
      (hbody : nestAll 0 body = some level) (hblank : ¬ IsBlank body) (hpart : Balanced part)
      (h : InsertsBelow part path body body') :
      InsertsBelow part (.ofList (trim name) :: path) (front ++ (name ++ '(' :: body))
        (front ++ (name ++ '(' :: body'))

/-- Tokens, and the tokens with one more in the body at the end of a path of relations. -/
inductive AddsBelow (token : Token) : List String → List Token → List Token → Prop where
  | here (pre post : List Token) : AddsBelow token [] (pre ++ post) (pre ++ token :: post)
  | inside {name body body' : String} {path : List String} (pre post : List Token)
      (h : AddsBelow token path (tokens body.toList) (tokens body'.toList)) :
      AddsBelow token (name :: path) (pre ++ .relation name body :: post)
        (pre ++ .relation name body' :: post)

/-- Tokens in front and behind do not matter. -/
lemma AddsBelow.append {token : Token} {path : List String} {list list' : List Token}
    (h : AddsBelow token path list list') (front back : List Token) :
    AddsBelow token path (front ++ (list ++ back)) (front ++ (list' ++ back)) := by
  cases h with
  | here pre post => simpa using AddsBelow.here (front ++ pre) (post ++ back)
  | inside pre post h => simpa using AddsBelow.inside (front ++ pre) (post ++ back) h

namespace InsertsBelow

variable {part text text' : List Char} {path : List String} {token : Token}

lemma subset (h : InsertsBelow part path text text') : text ⊆ text' := by
  induction h with
  | here h => exact h.subset
  | closed _ _ _ _ _ _ _ rest ih =>
      intro c hc
      simp only [List.mem_append, List.mem_cons] at hc ⊢
      exact hc.imp_right (.imp_right (.imp_right (.imp_left fun hc => ih hc)))
  | unclosed _ _ _ _ _ _ _ ih =>
      intro c hc
      simp only [List.mem_append, List.mem_cons] at hc ⊢
      exact hc.imp_right (.imp_right (.imp_right fun hc => ih hc))

lemma nestAll_eq (hpart : Balanced part) (h : InsertsBelow part path text text') (level : Nat) :
    nestAll level text' = nestAll level text := by
  induction h generalizing level with
  | here h => exact h.nestAll_eq hpart level
  | closed _ _ _ _ _ _ _ rest ih => simp only [nestAll_append, nestAll, ih]
  | unclosed _ _ _ _ _ _ _ ih => simp only [nestAll_append, nestAll, ih]

/-- A body that is not blank is none with a part in it, so that both read as they are. -/
lemma addsBelow_bodyText {body body' : List Char} (hblank : ¬ IsBlank body)
    (h : InsertsBelow part path body body') (hadds : AddsBelow token path (tokens body)
      (tokens body')) :
    AddsBelow token path (tokens (bodyText body).toList) (tokens (bodyText body').toList) := by
  have hblank' : ¬ IsBlank body' := fun hb => hblank fun c hc => hb c (h.subset hc)
  rwa [tokens_bodyText, tokens_bodyText, if_neg hblank, if_neg hblank']

/-- **A part of one token** adds that token. -/
lemma addsBelow (hpart : Spells part token) (h : InsertsBelow part path text text') :
    AddsBelow token path (tokens text) (tokens text') := by
  induction h with
  | here h =>
      obtain ⟨pre, post, hbefore, hafter⟩ := h.exists_tokens hpart.closed
      rw [hbefore, hafter, hpart.tokens_eq]
      exact .here pre post
  | @closed front name body body' path hfront hcomma hopen hbody hblank hbalanced h rest ih =>
      have hbody' : Balanced body' := by
        rw [balanced_iff_nestAll, h.nestAll_eq hbalanced, hbody.nestAll_eq]
      rw [hfront.tokens_append, tokens_relation_append hcomma hopen hbody, hfront.tokens_append,
        tokens_relation_append hcomma hopen hbody']
      exact .inside _ _ (h.addsBelow_bodyText hblank ih)
  | @unclosed front name body body' path level hfront hcomma hopen hbody hblank hbalanced h ih =>
      have hbody' : nestAll 0 body' = some level := by rw [h.nestAll_eq hbalanced, hbody]
      rw [hfront.tokens_append, tokens_relation_open hcomma hopen hbody, hfront.tokens_append,
        tokens_relation_open hcomma hopen hbody']
      exact .inside _ _ (h.addsBelow_bodyText hblank ih)

end InsertsBelow

end FieldSelection.Selection
