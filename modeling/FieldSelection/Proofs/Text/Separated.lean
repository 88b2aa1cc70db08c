import Mathlib.Tactic.Common
import FieldSelection.Text.Separated

/-!
Parts without the separator.

Parts in which the separator does not occur are read back from the text that they are
joined to (`split_join`), so that two lists of such parts never give the same text
(`join_injective`). A text has one part more than it has separators (`length_split`), no part
has a separator in it (`notMem_of_mem_split`), and texts with a separator between them have the
parts of both (`split_append_cons`).
-/

namespace FieldSelection.Text

variable {separator : Char}

/-- A text without the separator is one part. -/
lemma split_of_notMem {text : List Char} (h : separator ∉ text) :
    split separator text = [text] := by
  induction text with
  | nil => rfl
  | cons c text ih =>
      rw [List.mem_cons, not_or] at h
      rw [split_cons, if_neg (Ne.symm h.1), ih h.2, attach]

lemma length_attach (c : Char) {parts : List (List Char)} (h : parts ≠ []) :
    (attach c parts).length = parts.length := by
  cases parts with
  | nil => exact absurd rfl h
  | cons part parts => rfl

/-- There is one part more than there are separators. -/
lemma length_split (text : List Char) :
    (split separator text).length = text.count separator + 1 := by
  induction text with
  | nil => rfl
  | cons c text ih =>
      rw [split_cons]
      split
      · next hc => rw [List.length_cons, ih, hc, List.count_cons_self]
      · next hc =>
        rw [length_attach c (split_ne_nil separator text), ih, List.count_cons_of_ne hc]

lemma attach_append (c : Char) {parts : List (List Char)} (h : parts ≠ [])
    (others : List (List Char)) : attach c (parts ++ others) = attach c parts ++ others := by
  cases parts with
  | nil => exact absurd rfl h
  | cons part parts => rfl

/-- **Splitting turns separators into appends**: texts with a separator between them have the
parts of both. -/
lemma split_append_cons (text rest : List Char) :
    split separator (text ++ separator :: rest)
      = split separator text ++ split separator rest := by
  induction text with
  | nil => rw [List.nil_append, split_cons, if_pos rfl, split_nil, List.singleton_append]
  | cons c text ih =>
      rw [List.cons_append, split_cons, split_cons, ih]
      split
      · rfl
      · exact attach_append c (split_ne_nil separator text) _

/-- The first separator ends the first part. -/
lemma split_append_separator {part : List Char} (h : separator ∉ part) (text : List Char) :
    split separator (part ++ separator :: text) = part :: split separator text := by
  rw [split_append_cons, split_of_notMem h, List.singleton_append]

/-- No part has the separator in it. -/
lemma notMem_of_mem_split {text part : List Char} (h : part ∈ split separator text) :
    separator ∉ part := by
  induction text generalizing part with
  | nil =>
      rw [split_nil, List.mem_singleton] at h
      exact h ▸ List.not_mem_nil
  | cons c text ih =>
      rw [split_cons] at h
      split at h
      · rcases List.mem_cons.mp h with rfl | hrest
        · exact List.not_mem_nil
        · exact ih hrest
      · next hc =>
        obtain ⟨first, parts, hparts⟩ := List.exists_cons_of_ne_nil (split_ne_nil separator text)
        rw [hparts] at h ih
        rcases List.mem_cons.mp h with rfl | hrest
        · exact List.not_mem_cons_of_ne_of_not_mem (Ne.symm hc) (ih List.mem_cons_self)
        · exact ih (List.mem_cons_of_mem _ hrest)

lemma join_cons_cons (part next : List Char) (parts : List (List Char)) :
    join separator (part :: next :: parts)
      = part ++ separator :: join separator (next :: parts) :=
  rfl

/-- **Parts without the separator** are read back from the text they are joined to. -/
lemma split_join {parts : List (List Char)} (hne : parts ≠ [])
    (h : ∀ part ∈ parts, separator ∉ part) : split separator (join separator parts) = parts := by
  induction parts with
  | nil => exact absurd rfl hne
  | cons part parts ih =>
      obtain ⟨hpart, hparts⟩ := List.forall_mem_cons.mp h
      cases parts with
      | nil => rw [join, split_of_notMem hpart]
      | cons next parts =>
          rw [join_cons_cons, split_append_separator hpart, ih (List.cons_ne_nil _ _) hparts]

/-- Lists of parts without the separator are the same if they are joined to the same text. -/
lemma join_injective {parts others : List (List Char)} (hne : parts ≠ []) (hne' : others ≠ [])
    (h : ∀ part ∈ parts, separator ∉ part) (h' : ∀ part ∈ others, separator ∉ part)
    (heq : join separator parts = join separator others) : parts = others :=
  calc parts = split separator (join separator parts) := (split_join hne h).symm
    _ = split separator (join separator others) := by rw [heq]
    _ = others := split_join hne' h'

/-- A part that holds a separator itself is joined like the two parts around it. -/
lemma join_cons_append (part next : List Char) (parts : List (List Char)) :
    join separator ((part ++ separator :: next) :: parts)
      = part ++ separator :: join separator (next :: parts) := by
  cases parts with
  | nil => rfl
  | cons other parts =>
      rw [join_cons_cons, join_cons_cons, List.append_assoc, List.cons_append]

end FieldSelection.Text
