import FieldSelection.Proofs.Selection.Issues
import FieldSelection.Proofs.Text.Part

/-!
What stands at the places of tokens.

A scan gives places to what it finds. This file reads the text at these places.

* `Span.Holds`: the text at a span; `Span.Within` says that a span is one of the text at all.
* `stands_of_mem_locate`: pieces stand where they are located.
* `exists_word_of_mem_tokens`: at the span of a token that is no relation stands a word that
  means the token.
* `stands_of_mem_issues`: at the place of an issue stands its parenthesis.
-/

namespace FieldSelection.Selection

open FieldSelection.Text

/-! ### Spans -/

/-- **The text at a span**: it stands where the span starts, and ends where the span stops. -/
def Span.Holds (span : Span) (text part : List Char) : Prop :=
  Stands text span.start part ∧ span.stop = span.start + bytes part

/-- **A span of a text**: its ends are in order, inside the text, and between characters. -/
structure Span.Within (span : Span) (text : List Char) : Prop where
  start_le : span.start ≤ span.stop
  stop_le : span.stop ≤ bytes text
  start_boundary : Boundary text span.start
  stop_boundary : Boundary text span.stop

/-- A span at which a text stands is a span of the text. -/
lemma Span.Holds.within {span : Span} {text part : List Char} (h : span.Holds text part) :
    span.Within text := by
  obtain ⟨hstands, hstop⟩ := h
  have hboundary : Boundary text span.stop := hstop ▸ hstands.boundary_stop
  exact ⟨hstop ▸ Nat.le_add_right _ _, hboundary.le_bytes, hstands.boundary, hboundary⟩

/-- What stands in a part stands in the whole text. -/
lemma Span.Holds.shift {span : Span} {text part inner : List Char} {base : Nat}
    (h : span.Holds part inner) (hpart : Stands text base part) :
    (span.shift base).Holds text inner := by
  refine ⟨hpart.trans h.1, ?_⟩
  rw [Span.shift, h.2, Nat.add_assoc]

/-! ### Pieces -/

/-- **Pieces stand where they are located**. -/
lemma stands_of_mem_locate {text : List Char} {located : Nat × Piece}
    (h : located ∈ locate 0 (pieces text)) : Stands text located.1 located.2.source := by
  have key : ∀ (list : List Piece) (offset : Nat), located ∈ locate offset list →
      Stands text offset (list.flatMap Piece.source) → Stands text located.1 located.2.source := by
    intro list
    induction list with
    | nil => exact fun _ h => absurd h List.not_mem_nil
    | cons piece list ih =>
        intro offset h hstands
        rw [List.flatMap_cons] at hstands
        rcases List.mem_cons.mp h with rfl | h
        · exact hstands.left
        · exact ih _ h hstands.right
  refine key (pieces text) 0 h ?_
  rw [flatMap_source_pieces]
  exact stands_self text

/-! ### Words -/

/-- A token was read from a word that stands at its span, if it is no relation. -/
lemma exists_word_of_mem_tokens {text : List Char} {token : LocatedToken}
    (h : token ∈ (tokenize text).tokens)
    (hrelation : ∀ name body, token.token ≠ .relation name body) :
    ∃ word, token.span.Holds text word ∧ token.token = classify (trim word) := by
  obtain ⟨⟨offset, piece⟩, hlocated, htoken⟩ := List.mem_filterMap.mp h
  replace htoken : piece.token? offset = some token := htoken
  have hstands := stands_of_mem_locate hlocated
  cases piece with
  | word word ended =>
      rw [Piece.token?, Option.ite_none_left_eq_some, Option.some.injEq] at htoken
      obtain ⟨-, rfl⟩ := htoken
      exact ⟨word, ⟨hstands.left, rfl⟩, rfl⟩
  | relation name body closed =>
      cases htoken
      exact absurd rfl (hrelation _ _)

/-! ### Parentheses -/

/-- The parenthesis that an issue is about. -/
def Issue.paren : Issue → Char
  | .unmatchedOpen _ => '('
  | .strayClose _ => ')'

/-- Where that parenthesis is. -/
def Issue.offset : Issue → Nat
  | .unmatchedOpen offset | .strayClose offset => offset

lemma stands_of_mem_strayCloses {text part : List Char} {offset : Nat} {issue : Issue}
    (h : issue ∈ strayCloses offset part) (hpart : Stands text offset part) :
    Stands text issue.offset [issue.paren] := by
  induction part generalizing offset with
  | nil => cases h
  | cons c part ih =>
      rw [strayCloses] at h
      split at h
      · next hc =>
        subst hc
        rcases List.mem_cons.mp h with rfl | h
        · exact hpart.head
        · exact ih h hpart.tail
      · exact ih h hpart.tail

/-- **An issue is about the parenthesis** that stands at its place. -/
lemma stands_of_mem_issues {text : List Char} {issue : Issue} (h : issue ∈ (tokenize text).issues) :
    Stands text issue.offset [issue.paren] := by
  obtain ⟨⟨offset, piece⟩, hlocated, hissue⟩ := List.mem_flatMap.mp h
  have hstands := stands_of_mem_locate hlocated
  cases piece with
  | word word ended => exact stands_of_mem_strayCloses hissue hstands.left
  | relation name body closed =>
      rcases List.mem_append.mp hissue with hissue | hissue
      · exact stands_of_mem_strayCloses hissue hstands.left
      · cases closed with
        | true => cases hissue
        | false =>
            rw [List.mem_singleton.mp hissue]
            exact hstands.right.head

end FieldSelection.Selection
