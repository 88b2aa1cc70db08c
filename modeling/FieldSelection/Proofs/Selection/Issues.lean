import FieldSelection.Proofs.Selection.Reading

/-!
Balanced texts have no issues, and no others are without.

What a scan complains about are parentheses that do not match, and a balanced text has none
of them. Neither have the bodies in it.

* `Balanced.issues_eq_nil`: the scan of a balanced text finds no issues.
* `Piece.WellCut`: what the cut itself makes sure of; `balanced_of_issues_eq_nil` needs no more
  to find a text without issues balanced (`issues_eq_nil_iff`).
* `BalancedBodies`: the bodies of tokens are balanced; `Balanced.bodies` finds them so in a
  balanced text.
-/

namespace FieldSelection.Selection

open FieldSelection.Text

/-! ### Issues -/

lemma strayCloses_eq_nil {text : List Char} (h : ')' ∉ text) (offset : Nat) :
    strayCloses offset text = [] := by
  induction text generalizing offset with
  | nil => rfl
  | cons c text ih =>
      rw [List.mem_cons, not_or] at h
      rw [strayCloses, if_neg (Ne.symm h.1), ih h.2]

lemma Piece.Matched.issues_eq_nil {piece : Piece} (h : piece.Matched) (offset : Nat) :
    piece.issues offset = [] := by
  cases piece with
  | word text ended => exact strayCloses_eq_nil h offset
  | relation name body closed =>
      obtain ⟨hname, -, rfl⟩ := h
      rw [Piece.issues, strayCloses_eq_nil hname]
      rfl

/-- **Balanced texts** have no issues. -/
lemma Balanced.issues_eq_nil {text : List Char} (h : Balanced text) :
    (tokenize text).issues = [] :=
  List.flatMap_eq_nil_iff.mpr fun _ hlocated =>
    (h.matched _ (mem_of_mem_locate hlocated)).issues_eq_nil _

/-! ### Texts without issues -/

/-- How a piece is cut from any text: a comma and an opening parenthesis end a word and a name,
and a body that is closed is balanced. -/
def Piece.WellCut : Piece → Prop
  | .word text _ => ',' ∉ text ∧ '(' ∉ text
  | .relation name body closed => ',' ∉ name ∧ '(' ∉ name ∧ (closed = true → Balanced body)

lemma Cut.wellCut {list : List Piece} (h : Cut list) : ∀ piece ∈ list, piece.WellCut := by
  induction h with
  | last hcomma hopen => exact List.forall_mem_singleton.mpr ⟨hcomma, hopen⟩
  | word hcomma hopen _ ih => exact List.forall_mem_cons.mpr ⟨⟨hcomma, hopen⟩, ih⟩
  | closed hcomma hopen hbody _ ih =>
      exact List.forall_mem_cons.mpr ⟨⟨hcomma, hopen, fun _ => hbody⟩, ih⟩
  | unclosed hcomma hopen _ =>
      exact List.forall_mem_singleton.mpr ⟨hcomma, hopen, Bool.noConfusion⟩

lemma notMem_of_strayCloses {text : List Char} {offset : Nat}
    (h : strayCloses offset text = []) : ')' ∉ text := by
  induction text generalizing offset with
  | nil => exact List.not_mem_nil
  | cons c text ih =>
      rw [strayCloses] at h
      split at h
      · cases h
      · next hc => exact List.not_mem_cons_of_ne_of_not_mem (Ne.symm hc) (ih h)

/-- A piece without issues was cut from a balanced text. -/
lemma Piece.WellCut.balanced_source {piece : Piece} (h : piece.WellCut) {offset : Nat}
    (hissues : piece.issues offset = []) : Balanced piece.source := by
  cases piece with
  | word text ended =>
      have hcomma : Balanced (if ended then [','] else []) := by
        cases ended <;> decide
      exact (balanced_of_notMem h.2 (notMem_of_strayCloses hissues)).append hcomma
  | relation name body closed =>
      obtain ⟨-, hopen, hbody⟩ := h
      obtain ⟨hname, hclosed⟩ := List.append_eq_nil_iff.mp hissues
      obtain rfl : closed = true := by
        cases closed with
        | false => cases hclosed
        | true => rfl
      exact (balanced_of_notMem hopen (notMem_of_strayCloses hname)).append
        (hbody rfl).parenthesized

/-- A text whose scan finds no issues is balanced, piece by piece. -/
lemma balanced_of_issues_eq_nil {text : List Char} (h : (tokenize text).issues = []) :
    Balanced text := by
  have key : ∀ (list : List Piece) (offset : Nat), (∀ piece ∈ list, piece.WellCut) →
      issuesFrom offset list = [] → Balanced (list.flatMap Piece.source) := by
    intro list
    induction list with
    | nil => exact fun _ _ _ => balanced_of_notMem List.not_mem_nil List.not_mem_nil
    | cons piece list ih =>
        intro offset hcut hissues
        obtain ⟨hpiece, hlist⟩ := List.forall_mem_cons.mp hcut
        obtain ⟨hhere, hrest⟩ := List.append_eq_nil_iff.mp hissues
        exact (hpiece.balanced_source hhere).append (ih _ hlist hrest)
  rw [← flatMap_source_pieces text]
  exact key (pieces text) 0 (cut_pieces text).wellCut h

/-- **Exactly the balanced texts** have no issues. -/
theorem issues_eq_nil_iff {text : List Char} : (tokenize text).issues = [] ↔ Balanced text :=
  ⟨balanced_of_issues_eq_nil, Balanced.issues_eq_nil⟩

/-! ### Bodies -/

/-- Blanks around a balanced text can be left out. -/
lemma Balanced.trim {text : List Char} (h : Balanced text) : Balanced (trim text) := by
  obtain ⟨front, back, hfront, hback, htext⟩ := exists_blank_around text
  rw [htext, balanced_iff_nestAll, nestAll_append,
    (balanced_of_isBlank hfront).nestAll_eq, Option.bind_some, nestAll_append,
    Option.bind_eq_some_iff] at h
  obtain ⟨level, hlevel, hrest⟩ := h
  rw [(balanced_of_isBlank hback).nestAll_eq] at hrest
  cases hrest
  exact balanced_iff_nestAll.mpr hlevel

/-- A text that is `all` but for case and blanks has no parentheses. -/
lemma balanced_of_isAll {text : List Char} (h : isAll (Text.trim text) = true) :
    Balanced text := by
  obtain ⟨front, back, hfront, hback, htext⟩ := exists_blank_around text
  have hall : Balanced (Text.trim text) :=
    balanced_of_notMem (notMem_of_isAll h (by decide)) (notMem_of_isAll h (by decide))
  rw [htext]
  exact (balanced_of_isBlank hfront).append (hall.append (balanced_of_isBlank hback))

/-- What stands for a balanced body is balanced, also where the body is blank. -/
lemma Balanced.bodyText {body : List Char} (h : Balanced body) :
    Balanced (bodyText body).toList := by
  rw [Selection.bodyText]
  split
  · decide
  · rw [String.toList_ofList]
    exact h.trim

/-- The bodies in a list of tokens are balanced. -/
def BalancedBodies (list : List Token) : Prop :=
  ∀ name body, Token.relation name body ∈ list → Balanced body.toList

/-- **The bodies in a balanced text** are balanced. -/
lemma Balanced.bodies {text : List Char} (h : Balanced text) : BalancedBodies (tokens text) := by
  intro name body hmem
  obtain ⟨piece, hpiece, hreading⟩ := List.mem_filterMap.mp hmem
  have hmatched := h.matched piece hpiece
  cases piece with
  | word word ended =>
      rw [Piece.reading?, Option.ite_none_left_eq_some, Option.some.injEq] at hreading
      exact absurd hreading.2 (classify_ne_relation _ name body)
  | relation other inner closed =>
      cases hreading
      exact hmatched.2.1.bodyText

end FieldSelection.Selection
