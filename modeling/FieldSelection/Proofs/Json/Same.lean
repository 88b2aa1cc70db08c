import Mathlib.Data.List.Forall2
import FieldSelection.Proofs.Shape.Distinct

/-!
Equal values.

Two values are equal as they stand, or they are equal up to the order of the keys in their
objects. A reader of values finds the same in them either way, and that is all that most
arguments about equal values need.

* `Json.Same`: equality up to the order of keys; `Same.of_perm` is the case of one object.
* `Json.Discerning`: a relation between values that keeps apart what a reader can tell apart;
  `discerning_eq` and `discerning_same` are its two instances.
* `Json.Discerning.strings`: lists of strings that are related are the same.
-/

namespace FieldSelection

/-- Equal numbers. A whole number and a number with a binary point are never equal, and the two
zeros with a binary point are. -/
def Number.Same : Number → Number → Prop
  | .int n, .int m => n = m
  | .float x, .float y => x = y ∨ x.significand = 0 ∧ y.significand = 0
  | _, _ => False

lemma Number.same_refl (n : Number) : n.Same n := by
  cases n with
  | int n => exact rfl
  | float x => exact .inl rfl

namespace Json

/-- **Equal values, up to the order of keys**: arrays have equal items in the same order, and
objects have equal values under the same keys. -/
inductive Same : Json → Json → Prop where
  | null : Same .null .null
  | bool (b : Bool) : Same (.bool b) (.bool b)
  | number {n m : Number} (h : n.Same m) : Same (.number n) (.number m)
  | string (s : String) : Same (.string s) (.string s)
  | array {items others : List Json} (h : List.Forall₂ Same items others) :
      Same (.array items) (.array others)
  | object {entries others : List (String × Json)}
      (h : ∀ key, Option.Rel Same (Entries.lookup? key entries) (Entries.lookup? key others)) :
      Same (.object entries) (.object others)

mutual

/-- A value is equal to itself. -/
lemma Same.refl : (value : Json) → Same value value
  | .null => .null
  | .bool b => .bool b
  | .number n => .number n.same_refl
  | .string s => .string s
  | .array items => .array (Same.refl_items items)
  | .object entries => .object (Same.refl_entries entries)

lemma Same.refl_items : (items : List Json) → List.Forall₂ Same items items
  | [] => .nil
  | item :: items => .cons (Same.refl item) (Same.refl_items items)

lemma Same.refl_entries : (entries : List (String × Json)) → ∀ key,
    Option.Rel Same (Entries.lookup? key entries) (Entries.lookup? key entries)
  | [], _ => .none
  | (k, value) :: entries, key => by
      rw [Entries.lookup?]
      split
      · exact .some (Same.refl value)
      · exact Same.refl_entries entries key

end

/-- Objects with the same entries in different orders are equal. -/
lemma Same.of_perm {entries others : List (String × Json)} (h : entries.Perm others)
    (hn : (Entries.keys entries).Nodup) : Same (.object entries) (.object others) := by
  refine .object fun key => ?_
  rw [← Entries.lookup?_eq_of_perm h hn]
  exact Same.refl_entries entries key

/-- Equal values may be put before the entries of equal objects. -/
lemma Same.cons {entries others : List (String × Json)} {value other : Json} (k : String)
    (hvalue : value.Same other) (h : Same (.object entries) (.object others)) :
    Same (.object ((k, value) :: entries)) (.object ((k, other) :: others)) := by
  cases h with
  | object h =>
    refine .object fun key => ?_
    rw [Entries.lookup?, Entries.lookup?]
    split
    · exact .some hvalue
    · exact h key

/-- Whether a value is an array. -/
def isArray : Json → Bool
  | .array _ => true
  | _ => false

/-- A relation between values that keeps apart different truth values and texts, arrays and
other values, arrays item by item, and objects key by key. -/
structure Discerning (R : Json → Json → Prop) : Prop where
  bool : ∀ {a b : Bool}, R (.bool a) (.bool b) → a = b
  string : ∀ {s t : String}, R (.string s) (.string t) → s = t
  array : ∀ {items others : List Json}, R (.array items) (.array others) →
    List.Forall₂ R items others
  isArray : ∀ {value other : Json}, R value other → value.isArray = other.isArray
  object : ∀ {entries others : List (String × Json)}, R (.object entries) (.object others) →
    ∀ key, Option.Rel R (Entries.lookup? key entries) (Entries.lookup? key others)

/-- Equality keeps values apart. -/
lemma discerning_eq : Discerning Eq where
  bool h := by
    cases h
    rfl
  string h := by
    cases h
    rfl
  array h := by
    cases h
    exact List.forall₂_refl _
  isArray h := by rw [h]
  object h key := by
    cases h
    cases Entries.lookup? key _ with
    | none => exact .none
    | some value => exact .some rfl

/-- So does equality up to the order of keys. -/
lemma discerning_same : Discerning Same where
  bool h := by
    cases h
    rfl
  string h := by
    cases h
    rfl
  array h := by
    cases h with
    | array h => exact h
  isArray h := by cases h <;> rfl
  object h := by
    cases h with
    | object h => exact h

variable {R : Json → Json → Prop}

lemma Discerning.strings (hR : Discerning R) {items others : List String}
    (h : R (.strings items) (.strings others)) : items = others := by
  have hitems := hR.array h
  rw [List.forall₂_map_left_iff, List.forall₂_map_right_iff] at hitems
  rw [← List.forall₂_eq_eq_eq]
  exact hitems.imp fun _ _ => hR.string

end Json

end FieldSelection
