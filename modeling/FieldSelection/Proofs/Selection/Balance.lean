import Mathlib.Data.List.Basic
import Mathlib.Tactic.Common
import FieldSelection.Selection.Piece
import FieldSelection.Text.Separated

/-!
Balanced parentheses.

A text is balanced if no point of it has seen more closing parentheses than
opening ones and there are as many of both in the end.

* `Balanced`: the property, by counting.
* `nestAll`: the nesting level that a text leads to from another one;
  `nestAll_eq_some_iff` reads it off the counts, and `balanced_iff_nestAll` makes
  the property decidable.
* `Balanced.append`, `Balanced.parenthesized`, `Balanced.join`: balanced texts
  made of balanced texts.
* `cutBody_balanced`: a body that is balanced is cut off as a whole, and
  `matchingClose_balanced`: the search for its end finds the parenthesis behind it.
-/

namespace FieldSelection.Selection

open FieldSelection.Text

/-- **Balanced parentheses**: nothing is closed that was not opened before, and in
the end everything is closed. -/
def Balanced (text : List Char) : Prop :=
  (∀ start, start <+: text → start.count ')' ≤ start.count '(') ∧
    text.count '(' = text.count ')'

/-! ### The level of a text -/

/-- The nesting level after a text that starts at `level`, unless the text closes
more than that. -/
def nestAll (level : Nat) : List Char → Option Nat
  | [] => some level
  | c :: text => (nest level c).bind fun next => nestAll next text

/-- A character closes at most one level and opens at most one. -/
lemma nest_eq_some_iff {level next : Nat} {c : Char} :
    nest level c = some next ↔ level + [c].count '(' = [c].count ')' + next := by
  by_cases ho : c = '('
  · subst ho
    simp [nest]
  · by_cases hc : c = ')'
    · subst hc
      by_cases hl : level = 0
      · simp [nest, hl]
        omega
      · simp [nest, hl]
        omega
    · simp [nest, ho, hc]

/-- A body is closed from level `0` only. -/
lemma level_eq_zero_of_nest {level : Nat} {c : Char} (h : nest level c = none) : level = 0 := by
  by_contra hlevel
  simp [nest, eq_of_nest_eq_none h, hlevel] at h

lemma nestAll_append (level : Nat) (left right : List Char) :
    nestAll level (left ++ right) = (nestAll level left).bind (nestAll · right) := by
  induction left generalizing level with
  | nil => rfl
  | cons c left ih =>
      rw [List.cons_append, nestAll, nestAll, Option.bind_assoc]
      exact congrArg _ (funext fun next => ih next)

/-- The level after a text is the level before it, more by what is opened and
less by what is closed, as long as no point of the text has closed too much. -/
lemma nestAll_eq_some_iff {level next : Nat} {text : List Char} :
    nestAll level text = some next ↔
      (∀ start, start <+: text → start.count ')' ≤ level + start.count '(') ∧
        level + text.count '(' = text.count ')' + next := by
  induction text generalizing level with
  | nil =>
      simp only [nestAll, Option.some.injEq, List.prefix_nil, List.count_nil]
      constructor
      · rintro rfl
        exact ⟨by rintro start rfl; simp, by omega⟩
      · rintro ⟨-, h⟩
        omega
  | cons c text ih =>
      have hcons : ∀ (paren : Char) (rest : List Char),
          (c :: rest).count paren = [c].count paren + rest.count paren :=
        fun paren rest => @List.count_append _ _ paren [c] rest
      have hclosed := hcons ')' text
      have hopened := hcons '(' text
      simp only [nestAll, Option.bind_eq_some_iff, nest_eq_some_iff, ih]
      constructor
      · rintro ⟨mid, hmid, hstart, hcount⟩
        refine ⟨fun start hs => ?_, by omega⟩
        rcases List.prefix_cons_iff.mp hs with rfl | ⟨rest, rfl, hrest⟩
        · simp
        · have := hstart rest hrest
          rw [hcons ')' rest, hcons '(' rest]
          omega
      · rintro ⟨hstart, hcount⟩
        have hfirst := hstart [c] (by simp)
        refine ⟨level + [c].count '(' - [c].count ')', by omega, fun rest hrest => ?_, by omega⟩
        have := hstart (c :: rest) (List.prefix_cons_iff.mpr (Or.inr ⟨rest, rfl, hrest⟩))
        rw [hcons ')' rest, hcons '(' rest] at this
        omega

/-- A text is balanced exactly if it leads from level `0` back to level `0`. -/
lemma balanced_iff_nestAll {text : List Char} : Balanced text ↔ nestAll 0 text = some 0 := by
  simp [Balanced, nestAll_eq_some_iff]

instance (text : List Char) : Decidable (Balanced text) :=
  decidable_of_iff _ balanced_iff_nestAll.symm

/-- From a higher level, a text leads to a level that is as much higher. -/
lemma nestAll_add {level next : Nat} {text : List Char} (h : nestAll level text = some next)
    (more : Nat) : nestAll (level + more) text = some (next + more) := by
  obtain ⟨hstart, hcount⟩ := nestAll_eq_some_iff.mp h
  refine nestAll_eq_some_iff.mpr ⟨fun start hs => ?_, by omega⟩
  have := hstart start hs
  omega

/-- A balanced text leads from any level back to it. -/
lemma Balanced.nestAll_eq {text : List Char} (h : Balanced text) (level : Nat) :
    nestAll level text = some level := by
  have hadd := nestAll_add (balanced_iff_nestAll.mp h) level
  rwa [Nat.zero_add] at hadd

/-! ### Making balanced texts -/

lemma Balanced.append {left right : List Char} (hl : Balanced left) (hr : Balanced right) :
    Balanced (left ++ right) := by
  rw [balanced_iff_nestAll, nestAll_append, hl.nestAll_eq, Option.bind_some, hr.nestAll_eq]

/-- A text without parentheses is balanced. -/
lemma balanced_of_notMem {text : List Char} (ho : '(' ∉ text) (hc : ')' ∉ text) :
    Balanced text := by
  constructor
  · intro start hs
    rw [List.count_eq_zero_of_not_mem fun h => hc (hs.subset h)]
    exact Nat.zero_le _
  · rw [List.count_eq_zero_of_not_mem ho, List.count_eq_zero_of_not_mem hc]

/-- A balanced text in parentheses is balanced. -/
lemma Balanced.parenthesized {body : List Char} (h : Balanced body) :
    Balanced ('(' :: (body ++ [')'])) := by
  have hopen : nest 0 '(' = some 1 := rfl
  rw [balanced_iff_nestAll, nestAll, hopen, Option.bind_some, nestAll_append, h.nestAll_eq]
  rfl

/-- Balanced texts with commas between them are balanced. -/
lemma Balanced.join {parts : List (List Char)} (h : ∀ part ∈ parts, Balanced part) :
    Balanced (join ',' parts) := by
  induction parts with
  | nil => exact balanced_of_notMem (by simp [Text.join]) (by simp [Text.join])
  | cons part parts ih =>
      have hpart := h part (by simp)
      have hrest := ih fun p hp => h p (by simp [hp])
      cases parts with
      | nil => exact hpart
      | cons next parts =>
          have hcomma : Balanced [','] := by decide
          exact hpart.append (hcomma.append hrest)

/-! ### Cutting off a body -/

/-- As long as a text does not close the body, it is taken into the body. -/
lemma cutBody_append {level next : Nat} {inner : List Char}
    (h : nestAll level inner = some next) (name body rest : List Char) :
    cutBody name body level (inner ++ rest)
      = cutBody name (inner.reverse ++ body) next rest := by
  induction inner generalizing level body with
  | nil =>
      cases h
      rfl
  | cons c inner ih =>
      rw [nestAll] at h
      obtain ⟨mid, hmid, hinner⟩ := Option.bind_eq_some_iff.mp h
      rw [List.cons_append, cutBody, hmid]
      simp only [ih hinner, List.reverse_cons, List.append_assoc, List.singleton_append]

/-- **A balanced body is cut off as a whole** by the parenthesis behind it. -/
lemma cutBody_balanced {body : List Char} (h : Balanced body) (name rest : List Char) :
    cutBody name [] 0 (body ++ ')' :: rest) = .relation name body true :: cutWord [] rest := by
  have hclose : nest 0 ')' = none := rfl
  rw [cutBody_append (h.nestAll_eq 0), cutBody, hclose]
  simp

/-! ### Finding the end of a body -/

/-- What ends in front of the body is skipped. -/
lemma closeFrom_skip {first position : Nat} {front : List Char}
    (h : position + bytes front ≤ first) (level : Nat) (rest : List Char) :
    closeFrom first level position (front ++ rest)
      = closeFrom first level (position + bytes front) rest := by
  induction front generalizing position with
  | nil => rfl
  | cons c front ih =>
      rw [bytes_cons, ← Nat.add_assoc] at h
      have hlt : position < first := by
        have := c.utf8Size_pos
        omega
      rw [List.cons_append, closeFrom, if_pos hlt, ih h, bytes_cons, Nat.add_assoc]

/-- As long as a text does not close the body, the search goes on behind it. -/
lemma closeFrom_append {level next : Nat} {inner : List Char}
    (h : nestAll level inner = some next) {first position : Nat} (hle : first ≤ position)
    (rest : List Char) :
    closeFrom first level position (inner ++ rest)
      = closeFrom first next (position + bytes inner) rest := by
  induction inner generalizing level position with
  | nil =>
      cases h
      rfl
  | cons c inner ih =>
      obtain ⟨mid, hmid, hinner⟩ := Option.bind_eq_some_iff.mp h
      rw [List.cons_append, closeFrom, if_neg (Nat.not_lt.mpr hle), hmid]
      simp only [ih hinner (Nat.le_add_right_of_le hle), bytes_cons, Nat.add_assoc]

/-- **The end of a balanced body** is the parenthesis behind it. -/
lemma matchingClose_balanced {body : List Char} (h : Balanced body) (front rest : List Char) :
    matchingClose (front ++ (body ++ ')' :: rest)) (bytes front)
      = some (bytes front + bytes body) := by
  have hclose : nest 0 ')' = none := rfl
  rw [matchingClose, closeFrom_skip (Nat.le_of_eq (Nat.zero_add _)), Nat.zero_add,
    closeFrom_append (h.nestAll_eq 0) (Nat.le_refl _), closeFrom, if_neg (by omega), hclose]

/-- A body that nothing closes has no end. -/
lemma matchingClose_unclosed {body : List Char} {level : Nat} (h : nestAll 0 body = some level)
    (front : List Char) : matchingClose (front ++ body) (bytes front) = none := by
  rw [matchingClose, closeFrom_skip (Nat.le_of_eq (Nat.zero_add _)), Nat.zero_add,
    ← List.append_nil body, closeFrom_append h (Nat.le_refl _), closeFrom]

end FieldSelection.Selection
