import Mathlib.Tactic.Common
import FieldSelection.Proofs.Level.Reach

/-!
Dotted paths.

Levels are addressed by the names that lead to them, joined by dots.

* `below?_eq_some_iff`: a key is below a path if it is a name joined to the path.
* `childKey?_eq_some_iff`: the keys right below a path.
* `dotted`: a name behind a path of relations; `joinPath_follow?` finds the place at
  the end of the path under it.
-/

namespace FieldSelection

/-! ### Keys below a path -/

lemma stripStart_eq_some_iff {start text rest : List Char} :
    stripStart start text = some rest ↔ text = start ++ rest := by
  induction start generalizing text with
  | nil => simp [stripStart]
  | cons s start ih =>
      cases text with
      | nil => simp [stripStart]
      | cons c text =>
          rw [stripStart]
          split
          · next h => rw [ih, h, List.cons_append, List.cons.injEq, and_iff_right rfl]
          · next h =>
            constructor
            · intro hnone
              cases hnone
            · intro heq
              cases heq
              exact absurd rfl h

/-- The keys below a path are the names joined to it. -/
lemma below?_eq_some_iff {path key name : String} :
    below? path key = some name ↔ key = joinPath path name := by
  rw [below?, joinPath]
  split
  · rw [Option.some.injEq]
  · simp only [Option.map_eq_some_iff, stripStart_eq_some_iff, String.ext_iff,
      String.toList_append, String.toList_ofList]
    constructor
    · rintro ⟨rest, hkey, rfl⟩
      exact hkey
    · intro hkey
      exact ⟨name.toList, hkey, rfl⟩

lemma joinPath_ne_empty {path name : String} (h : name ≠ "") : joinPath path name ≠ "" := by
  rw [joinPath]
  split
  · exact h
  · intro hempty
    have hlist := congrArg String.toList hempty
    simp at hlist

lemma joinPath_joinPath {path name : String} (h : name ≠ "") (rest : String) :
    joinPath (joinPath path name) rest = joinPath path (joinPath name rest) := by
  rw [joinPath, if_neg (joinPath_ne_empty h), joinPath, joinPath, joinPath, if_neg h]
  split
  · rfl
  · simp only [String.append_assoc]

/-- The keys right below a path are the names joined to it that have no dots. -/
lemma childKey?_eq_some_iff {path key name : String} :
    childKey? path key = some name ↔ key = joinPath path name ∧ name ≠ "" ∧ '.' ∉ name.toList := by
  simp only [childKey?, Option.filter_eq_some_iff, below?_eq_some_iff, Bool.and_eq_true,
    decide_eq_true_eq]

/-! ### Names behind relations -/

/-- A name behind a path of relations, with a dot between any two names. -/
def dotted (path : List String) (name : String) : String :=
  path.foldr (fun relation rest => relation ++ "." ++ rest) name

/-- A name at the end of a path of relations. -/
lemma Place.joinPath_follow? {place next : Place} {path : List String}
    (h : place.follow? path = some next) (name : String) :
    joinPath next.path name = joinPath place.path (dotted path name) := by
  induction path generalizing place with
  | nil =>
      cases h
      rfl
  | cons relation path ih =>
      obtain ⟨mid, hmid, hnext⟩ := Option.bind_eq_some_iff.mp h
      obtain ⟨hrelation, -, -, hpath⟩ := Place.enter?_eq_some_iff.mp hmid
      have hdotted : joinPath relation (dotted path name) = dotted (relation :: path) name := by
        rw [joinPath, if_neg hrelation]
        rfl
      rw [ih hnext, hpath, joinPath_joinPath hrelation, hdotted]

/-- A name at the end of a path of relations from the root. -/
lemma Compiler.joinPath_follow? {compiler : Compiler} {path : List String} {place : Place}
    (h : compiler.root.follow? path = some place) (name : String) :
    joinPath place.path name = dotted path name :=
  Place.joinPath_follow? h name

end FieldSelection
