import FieldSelection.Proofs.Selection.Matching
import FieldSelection.Proofs.Selection.Spans

/-!
A scan loses no text.

The tokens of a text stand one behind the other, and between them there is nothing but blanks and
the commas that separate them. What stands at the span of a token tells the token: a word is read
as it is, and a relation is a name with a body in parentheses, where only the last parenthesis may
be missing.

* `Piece.Found`: a piece and what stands in front of it and behind it; `exists_found` finds the
  pieces of a text.
* `StandsOutside`: what stands outside of all parentheses, as pieces do.
* `LocatedToken.IsWord`, `LocatedToken.IsRelation`: what a token has to do with the text at its
  span; `isWord_of_mem_locate` and `isRelation_of_mem_locate` find it so.
* `Scan.Lossless`: what it means that a scan loses no text; `lossless_tokenize`: none does.
-/

namespace FieldSelection.Selection

open FieldSelection.Text

/-! ### The pieces of a text -/

/-- Where a piece of a text is found: what is in front of it leaves no parenthesis open, and what
is behind it is cut into the pieces that follow. -/
structure Piece.Found (piece : Piece) (text : List Char) (offset : Nat) (front : List Char)
    (rest : List Piece) : Prop where
  text_eq : text = front ++ (piece.source ++ rest.flatMap Piece.source)
  bytes_eq : bytes front = offset
  stack_eq : (unmatched front).stack = []
  cut : Cut (piece :: rest)

/-- A piece that others follow leaves nothing open. -/
lemma Cut.tail {piece : Piece} {list : List Piece} (h : Cut (piece :: list)) (hne : list ≠ []) :
    Cut list ∧ ∀ {front : List Char}, (unmatched front).stack = [] →
      (unmatched (front ++ piece.source)).stack = [] := by
  cases h with
  | last _ _ => exact absurd rfl hne
  | word _ hopen hlist =>
      exact ⟨hlist, fun hfront => stack_append_balanced hfront hopen (by decide)⟩
  | closed _ hopen hbody hlist =>
      exact ⟨hlist, fun hfront => stack_append_balanced hfront hopen hbody.parenthesized⟩
  | unclosed _ _ _ => exact absurd rfl hne

/-- Pieces that are cut from a text behind some front are found there. -/
lemma Cut.exists_found {list : List Piece} (hcut : Cut list) {front : List Char}
    (hfront : (unmatched front).stack = []) {located : Nat × Piece}
    (h : located ∈ locate (bytes front) list) :
    ∃ front' rest, located.2.Found (front ++ list.flatMap Piece.source) located.1 front' rest := by
  induction list generalizing front with
  | nil => cases h
  | cons piece list ih =>
      rcases List.mem_cons.mp h with rfl | h
      · exact ⟨front, list, rfl, rfl, hfront, hcut⟩
      · have hne : list ≠ [] := List.ne_nil_of_mem (mem_of_mem_locate h)
        obtain ⟨htail, hstack⟩ := hcut.tail hne
        rw [Piece.size, ← bytes_append] at h
        rw [List.flatMap_cons, ← List.append_assoc]
        exact ih htail (hstack hfront) h

/-- **The pieces of a text** are found in it. -/
lemma exists_found {text : List Char} {located : Nat × Piece}
    (h : located ∈ locate 0 (pieces text)) :
    ∃ front rest, located.2.Found text located.1 front rest := by
  have hempty : (unmatched []).stack = [] := rfl
  have hfound := (cut_pieces text).exists_found hempty h
  rwa [flatMap_source_pieces, List.nil_append] at hfound

/-- A part stands in a text **outside of all parentheses**: what is in front of it leaves nothing
open. -/
def StandsOutside (text : List Char) (place : Nat) (part : List Char) : Prop :=
  ∃ front back, text = front ++ (part ++ back) ∧ bytes front = place ∧ (unmatched front).stack = []

lemma StandsOutside.left {text first rest : List Char} {place : Nat}
    (h : StandsOutside text place (first ++ rest)) : StandsOutside text place first := by
  obtain ⟨front, back, rfl, hplace, hstack⟩ := h
  exact ⟨front, rest ++ back, by simp only [List.append_assoc], hplace, hstack⟩

/-- What stands behind a word is outside of all parentheses, too. -/
lemma StandsOutside.right {text word rest : List Char} {place : Nat}
    (h : StandsOutside text place (word ++ rest)) (hopen : '(' ∉ word) :
    StandsOutside text (place + bytes word) rest := by
  obtain ⟨front, back, rfl, rfl, hstack⟩ := h
  exact ⟨front ++ word, back, by simp only [List.append_assoc], bytes_append _ _,
    stack_append_word hstack hopen⟩

/-- Pieces stand outside of all parentheses. -/
lemma Piece.Found.standsOutside {piece : Piece} {text front : List Char} {offset : Nat}
    {rest : List Piece} (h : piece.Found text offset front rest) :
    StandsOutside text offset piece.source :=
  ⟨front, rest.flatMap Piece.source, h.text_eq, h.bytes_eq, h.stack_eq⟩

/-! ### What stands at the span of a token -/

/-- **A word token**: at its span stands a word without commas and opening parentheses, which the
token is read from when the blanks around it are left out. -/
structure LocatedToken.IsWord (token : LocatedToken) (text word : List Char) : Prop where
  holds : token.span.Holds text word
  comma : ',' ∉ word
  opening : '(' ∉ word
  nonblank : ¬ IsBlank word
  token_eq : token.token = classify (trim word)
  bodyOffset_eq : token.bodyOffset = none

/-- **A relation token**: at its span stand a name, an opening parenthesis, a body, and the
parenthesis that closes the body, unless nothing closes it. -/
structure LocatedToken.IsRelation (token : LocatedToken) (text name body : List Char)
    (closed : Bool) : Prop where
  holds : token.span.Holds text (name ++ '(' :: (body ++ if closed then [')'] else []))
  comma : ',' ∉ name
  opening : '(' ∉ name
  /-- The closing parenthesis is missing only where the opening one is not matched. -/
  mem_stack_iff : token.span.start + bytes name ∈ (unmatched text).stack ↔ closed = false
  /-- Where it is not missing, it is the one that matches. -/
  matchingClose_eq : matchingClose text (token.span.start + bytes name + 1)
    = if closed then some (token.span.start + bytes name + 1 + bytes body) else none
  balanced : closed = true → Balanced body
  /-- Name and body are taken without the blanks around them, and a blank body reads as `all`. -/
  token_eq : token.token
    = .relation (.ofList (trim name)) (if IsBlank body then "all" else .ofList (trim body))
  /-- The trimmed body starts behind the leading blanks of the body. -/
  bodyOffset_eq : token.bodyOffset
    = some (token.span.start + bytes name + 1 + bytes (body.takeWhile isBlank))
  stands_body : Stands text
    (token.span.start + bytes name + 1 + bytes (body.takeWhile isBlank)) (trim body)

/-- The search for the end of a body finds it where the piece ends, if the body is closed. -/
lemma Piece.Found.matchingClose_eq {text name body front : List Char} {closed : Bool}
    {offset : Nat} {rest : List Piece}
    (h : (Piece.relation name body closed).Found text offset front rest) :
    matchingClose text (offset + bytes name + 1)
      = if closed then some (offset + bytes name + 1 + bytes body) else none := by
  obtain ⟨rfl, rfl, -, hcut⟩ := h
  have hplace : bytes front + bytes name + 1 = bytes (front ++ (name ++ ['('])) := by
    rw [bytes_append, bytes_append, ← Nat.add_assoc]
    rfl
  rw [hplace]
  cases hcut with
  | closed _ _ hbody _ =>
      have hclose := matchingClose_balanced hbody (front ++ (name ++ ['(']))
        (rest.flatMap Piece.source)
      simpa [Piece.source] using hclose
  | unclosed _ _ hbody =>
      have hclose := matchingClose_unclosed hbody (front ++ (name ++ ['(']))
      simpa [Piece.source] using hclose

/-- A stack leaves the opening parenthesis unmatched if the body is not closed. -/
lemma Piece.Found.mem_stack_iff {text name body front : List Char} {closed : Bool} {offset : Nat}
    {rest : List Piece} (h : (Piece.relation name body closed).Found text offset front rest) :
    offset + bytes name ∈ (unmatched text).stack ↔ closed = false := by
  obtain ⟨rfl, rfl, hstack, hcut⟩ := h
  cases hcut with
  | closed _ hopen hbody _ =>
      refine ⟨fun hmem => ?_, Bool.noConfusion⟩
      have hsource : (unmatched (front ++ (Piece.relation name body true).source)).stack = [] :=
        stack_append_balanced hstack hopen hbody.parenthesized
      rw [← List.append_assoc, unmatched_append] at hmem
      rcases Parens.mem_stack_read hmem with hmem | hle
      · rw [hsource] at hmem
        cases hmem
      · have hone : '('.utf8Size = 1 := rfl
        rw [Piece.source, bytes_append, bytes_append, bytes_cons, hone] at hle
        omega
  | unclosed _ hopen hbody =>
      obtain ⟨closes, inner, hread, -⟩ :=
        Parens.read_unclosed hopen hbody (unmatched front).stray (bytes front)
      refine iff_of_true ?_ rfl
      rw [List.flatMap_nil, List.append_nil, Piece.source, if_neg Bool.false_ne_true,
        List.append_nil, unmatched_append, unmatched_eq_of_stack hstack, hread]
      exact List.mem_append_right _ (List.mem_singleton_self _)

/-- The token of a word that is not blank is a word token. -/
lemma isWord_of_mem_locate {text word : List Char} {ended : Bool} {offset : Nat}
    (h : (offset, Piece.word word ended) ∈ locate 0 (pieces text)) (hblank : ¬ IsBlank word) :
    LocatedToken.IsWord ⟨classify (trim word), ⟨offset, offset + bytes word⟩, none⟩ text word := by
  obtain ⟨front, rest, hfound⟩ := exists_found h
  exact {
    holds := ⟨(stands_of_mem_locate h).left, rfl⟩
    comma := by cases hfound.cut <;> assumption
    opening := by cases hfound.cut <;> assumption
    nonblank := hblank
    token_eq := rfl
    bodyOffset_eq := rfl }

/-- The token of a relation is a relation token. -/
lemma isRelation_of_mem_locate {text name body : List Char} {closed : Bool} {offset : Nat}
    (h : (offset, Piece.relation name body closed) ∈ locate 0 (pieces text)) :
    LocatedToken.IsRelation
      { token := .relation (.ofList (trim name)) (bodyText body)
        span := ⟨offset, offset + (Piece.relation name body closed).size⟩
        bodyOffset := some (offset + bytes name + 1 + bytes (body.takeWhile isBlank)) }
      text name body closed := by
  obtain ⟨front, rest, hfound⟩ := exists_found h
  exact {
    holds := ⟨stands_of_mem_locate h, rfl⟩
    comma := by cases hfound.cut <;> assumption
    opening := by cases hfound.cut <;> assumption
    mem_stack_iff := hfound.mem_stack_iff
    matchingClose_eq := hfound.matchingClose_eq
    balanced := by
      rintro rfl
      cases hfound.cut
      assumption
    token_eq := by simp only [bodyText, trim_eq_nil_iff]
    bodyOffset_eq := rfl
    stands_body := (stands_of_mem_locate h).right.tail.left.trim }

/-- The token of a piece stands where the piece does. -/
lemma span_of_token? {piece : Piece} {offset : Nat} {token : LocatedToken}
    (h : piece.token? offset = some token) :
    offset ≤ token.span.start ∧ token.span.stop ≤ offset + piece.size := by
  cases piece with
  | word word ended =>
      rw [Piece.token?, Option.ite_none_left_eq_some, Option.some.injEq] at h
      obtain ⟨-, rfl⟩ := h
      refine ⟨Nat.le_refl _, ?_⟩
      rw [Piece.size, Piece.source, bytes_append, ← Nat.add_assoc]
      exact Nat.le_add_right _ _
  | relation name body closed =>
      cases h
      exact ⟨Nat.le_refl _, Nat.le_refl _⟩

/-! ### Nothing is lost -/

/-- Whether a byte belongs to a span. -/
def Span.Contains (span : Span) (byte : Nat) : Prop :=
  span.start ≤ byte ∧ byte < span.stop

/-- **A scan that loses nothing** of a text. -/
structure Scan.Lossless (scan : Scan) (text : List Char) : Prop where
  /-- Spans are spans of the text. -/
  within : ∀ token ∈ scan.tokens, token.span.Within text
  /-- They stand one behind the other. -/
  ascending : scan.tokens.Pairwise fun token later => token.span.stop ≤ later.span.start
  /-- A byte outside of them belongs to a comma at the top level or to blanks. -/
  outside : ∀ byte < bytes text, (∀ token ∈ scan.tokens, ¬ token.span.Contains byte) →
    StandsOutside text byte [','] ∨
      ∃ place blanks, StandsOutside text place blanks ∧ IsBlank blanks ∧
        place ≤ byte ∧ byte < place + bytes blanks
  /-- The text at a span tells the token. -/
  reads : ∀ token ∈ scan.tokens,
    (∃ word, token.IsWord text word) ∨ ∃ name body closed, token.IsRelation text name body closed

/-- The text at the span of a token tells the token. -/
lemma reads_tokenize {text : List Char} {token : LocatedToken}
    (h : token ∈ (tokenize text).tokens) :
    (∃ word, token.IsWord text word) ∨
      ∃ name body closed, token.IsRelation text name body closed := by
  obtain ⟨⟨offset, piece⟩, hlocated, htoken⟩ := List.mem_filterMap.mp h
  replace htoken : piece.token? offset = some token := htoken
  cases piece with
  | word word ended =>
      rw [Piece.token?, Option.ite_none_left_eq_some, Option.some.injEq] at htoken
      obtain ⟨hblank, rfl⟩ := htoken
      exact Or.inl ⟨word, isWord_of_mem_locate hlocated (mt trim_eq_nil_iff.mpr hblank)⟩
  | relation name body closed =>
      cases htoken
      exact Or.inr ⟨name, body, closed, isRelation_of_mem_locate hlocated⟩

/-- A byte that belongs to no token belongs to a comma or to a blank word. -/
lemma outside_tokenize {text : List Char} {byte : Nat} (hbyte : byte < bytes text)
    (h : ∀ token ∈ (tokenize text).tokens, ¬ token.span.Contains byte) :
    StandsOutside text byte [','] ∨
      ∃ place blanks, StandsOutside text place blanks ∧ IsBlank blanks ∧
        place ≤ byte ∧ byte < place + bytes blanks := by
  rw [← flatMap_source_pieces text, ← Nat.zero_add (bytes _)] at hbyte
  obtain ⟨⟨offset, piece⟩, hlocated, hle, hlt⟩ := exists_mem_locate_of_lt (Nat.zero_le _) hbyte
  obtain ⟨front, rest, hfound⟩ := exists_found hlocated
  have hnone : ∀ token, piece.token? offset = some token → ¬ token.span.Contains byte :=
    fun token htoken => h token (List.mem_filterMap.mpr ⟨_, hlocated, htoken⟩)
  cases piece with
  | relation name body closed => exact absurd ⟨hle, hlt⟩ (hnone _ rfl)
  | word word ended =>
      by_cases hin : byte < offset + bytes word
      · have hblank : IsBlank word := by
          by_contra hblank
          have htoken : (Piece.word word ended).token? offset
              = some ⟨classify (trim word), ⟨offset, offset + bytes word⟩, none⟩ := by
            rw [Piece.token?, if_neg (mt trim_eq_nil_iff.mp hblank)]
          exact hnone _ htoken ⟨hle, hin⟩
        exact Or.inr ⟨offset, word, hfound.standsOutside.left, hblank, hle, hin⟩
      · have hopen : '(' ∉ word := by cases hfound.cut <;> assumption
        -- only the comma that ends the word is left
        cases ended with
        | false =>
            rw [Piece.size, Piece.source, if_neg Bool.false_ne_true, List.append_nil] at hlt
            exact absurd hlt hin
        | true =>
            have hcomma : bytes [','] = 1 := rfl
            rw [Piece.size, Piece.source, if_pos rfl, bytes_append, hcomma] at hlt
            obtain rfl : byte = offset + bytes word := by omega
            exact Or.inl (hfound.standsOutside.right hopen)

/-- **A scan loses no text**: its tokens stand one behind the other, only commas and blanks are
between them, and they are read from what stands at their spans. -/
theorem lossless_tokenize (text : List Char) : (tokenize text).Lossless text where
  within token h := by
    rcases reads_tokenize h with ⟨word, hword⟩ | ⟨name, body, closed, hrelation⟩
    · exact hword.holds.within
    · exact hrelation.holds.within
  ascending := by
    refine List.pairwise_filterMap.mpr ((pairwise_locate (pieces text) 0).imp ?_)
    intro located later hle token htoken next hnext
    have hstop := (span_of_token? htoken).2
    have hstart := (span_of_token? hnext).1
    omega
  outside _ hbyte h := outside_tokenize hbyte h
  reads _ h := reads_tokenize h

end FieldSelection.Selection
