import FieldSelection.Proofs.Compiler.Repetition
import FieldSelection.Proofs.Level.Reach
import FieldSelection.Proofs.Selection.Insertion

/-!
Unknown names.

A token with a name that its level does not know is noted, and that is all: wherever it is put
into a selection, the descriptor is the one without it. Unknown exclusions do not turn a level
into one that leaves something out, and unknown relations do not hide others.

* `Place.Ignores`: the tokens that a place does not know.
* `Place.equivalent_of_ignores`: with and without such a token, a level is asked for the same.
* `compiled_of_addsBelow`: a token that the place behind a path does not know changes no level,
  by induction on the path.
* `compile_unknown`: so neither does its text.
-/

namespace FieldSelection

open FieldSelection.Selection FieldSelection.Text

/-! ### Names without some of them -/

/-- Names can be left out before or after repetitions are. -/
lemma filter_distinctNames (p : String → Bool) (names : List String) :
    (distinctNames names).filter p = distinctNames (names.filter p) := by
  induction names using List.reverseRecOn with
  | nil => rfl
  | append_singleton names last ih =>
      rw [distinctNames_append_singleton, List.filter_append]
      cases hlast : p last with
      | false =>
          rw [List.filter_cons_of_neg (by simp [hlast]), List.filter_nil, List.append_nil, ← ih,
            insertName]
          split
          · rfl
          · simp [hlast]
      | true =>
          rw [List.filter_cons_of_pos hlast, List.filter_nil, distinctNames_append_singleton, ← ih,
            insertName, insertName]
          by_cases hmem : last ∈ names <;> simp [hmem, hlast]

/-! ### Tokens that a place does not know -/

namespace Place

/-- Whether a place does not know the name of a token: neither as a field, nor as a relation
where the token excludes or names one. -/
def Ignores (place : Place) : Token → Prop
  | .all => False
  | .field name | .filter name _ => place.hasField name = false
  | .except name => place.hasField name = false ∧ place.enter? name = none
  | .relation name _ => place.enter? name = none

instance (place : Place) : (token : Token) → Decidable (place.Ignores token)
  | .all => inferInstanceAs (Decidable False)
  | .field _ | .filter _ _ => inferInstanceAs (Decidable (_ = _))
  | .except _ => inferInstanceAs (Decidable (_ ∧ _))
  | .relation _ _ => inferInstanceAs (Decidable (_ = none))

variable {place : Place} {token : Token}

lemma Ignores.wanted?_eq_none (h : place.Ignores token) : place.wanted? token = none := by
  cases token with
  | field name => exact if_neg (Bool.eq_false_iff.mp h)
  | filter name value => exact if_neg (Bool.eq_false_iff.mp h)
  | _ => rfl

lemma Ignores.unwanted?_eq_none (h : place.Ignores token) : place.unwanted? token = none := by
  cases token with
  | except name => exact if_neg (Bool.eq_false_iff.mp h.1)
  | _ => rfl

lemma Ignores.unwantedRelation?_eq_none (h : place.Ignores token) :
    place.unwantedRelation? token = none := by
  cases token with
  | except name => simp [unwantedRelation?, h.2]
  | _ => rfl

/-- Where a field is known, such a token has no filter on it. -/
lemma Ignores.filterOn?_eq_none (h : place.Ignores token) {name : String}
    (hname : place.hasField name = true) : filterOn? name token = none := by
  cases token with
  | filter other value =>
      refine if_neg ?_
      rintro rfl
      exact Bool.eq_false_iff.mp h hname
  | _ => rfl

/-- To a relation that is known, such a token gives no body. -/
lemma Ignores.bodyOf?_eq_none (h : place.Ignores token) {name : String} {next : Place}
    (hname : place.enter? name = some next) : bodyOf? name token = none := by
  refine Option.eq_none_iff_forall_ne_some.mpr fun body hbody => ?_
  obtain rfl := bodyOf?_eq_some_iff.mp hbody
  have hnone : place.enter? name = none := h
  rw [hname] at hnone
  cases hnone

lemma Ignores.ne_all (h : place.Ignores token) : token ≠ .all := by
  rintro rfl
  exact h

/-- The relations that are named and known do not include the one of such a token. -/
lemma Ignores.named_eq (h : place.Ignores token) (pre post : List Token) :
    place.named (pre ++ token :: post) = place.named (pre ++ post) := by
  simp only [named, relationNames, filter_distinctNames, List.filterMap_append,
    List.filter_append]
  cases htoken : relationName? token with
  | none => rw [List.filterMap_cons_none htoken]
  | some name =>
      have hname : (place.enter? name).isSome = false := by
        cases token <;> simp only [relationName?, reduceCtorEq, Option.some.injEq] at htoken
        subst htoken
        exact Option.isSome_eq_false_iff.mpr (Option.isNone_iff_eq_none.mpr h)
      rw [List.filterMap_cons_some htoken, List.filter_cons_of_neg (by simp [hname])]

/-- **What a place does not know** is not asked for: with and without the token, its level is
asked for the same. -/
lemma equivalent_of_ignores (h : place.Ignores token) (keysMode : Bool) (pre post : List Token) :
    place.Equivalent keysMode (pre ++ token :: post) (pre ++ post) where
  wanted := by
    rw [List.filterMap_append, List.filterMap_cons_none h.wanted?_eq_none, List.filterMap_append]
  unwanted := by
    rw [List.filterMap_append, List.filterMap_cons_none h.unwanted?_eq_none, List.filterMap_append]
  unwantedRelations := by
    rw [unwantedRelations, List.filterMap_append,
      List.filterMap_cons_none h.unwantedRelation?_eq_none, ← List.filterMap_append,
      ← unwantedRelations]
  inline := by
    intro name
    rw [inline?, inline?]
    split
    · next hname =>
      have hfield : place.hasField name = true := (Bool.and_eq_true_iff.mp hname).2
      rw [List.filterMap_append, List.filterMap_cons_none (h.filterOn?_eq_none hfield),
        List.filterMap_append]
    · rfl
  all := by simp [h.ne_all.symm]
  named := h.named_eq pre post

/-- Bodies that are written differently are behind the same relations. -/
lemma equivalent_inside (place : Place) (keysMode : Bool) (name body body' : String)
    (pre post : List Token) :
    place.Equivalent keysMode (pre ++ .relation name body' :: post)
      (pre ++ .relation name body :: post) := by
  refine Equivalent.of_besides ?_ ?_
  · simp [besidesRelations, relationName?]
  · simp [named, relationNames, relationName?]

end Place

/-- **What is not known changes no level**: a token that the place at the end of a path does not
know adds nothing there, nor to the levels on the way. -/
lemma compiled_of_addsBelow {options : CompileOptions} {query : Query} {token : Token}
    {path : List String} {list list' : List Token} (h : AddsBelow token path list list')
    (room : Nat) {place : Place}
    (hunknown : ∀ next, place.follow? path = some next → next.Ignores token) :
    place.compiled options query room list' = place.compiled options query room list := by
  induction path generalizing room place list list' with
  | nil =>
      cases h with
      | here pre post =>
          have hignores := hunknown place rfl
          refine (Place.equivalent_of_ignores hignores _ pre post).compiled_eq room
            fun room' _ name next hnext => ?_
          rw [bodyTokens_append, bodyTokens_cons_of_none (hignores.bodyOf?_eq_none hnext),
            ← bodyTokens_append]
  | cons name path ih =>
      cases h with
      | @inside _ body body' _ pre post hinside =>
          refine (place.equivalent_inside _ name body body' pre post).compiled_eq room
            fun room' _ other next hnext => ?_
          simp only [bodyTokens_append, bodyTokens_cons]
          by_cases hname : name = other
          · subst hname
            rw [if_pos rfl, if_pos rfl]
            refine ih (hinside.append _ _) room' fun last hlast => hunknown last ?_
            rw [Place.follow?, hnext, Option.bind_some, hlast]
          · rw [if_neg hname, if_neg hname]

/-- **Unknown names have no effect.** One more token in a selection, between the tokens of the
root or of the body at the end of a path of relations, leaves the descriptor as it is if the place
behind the path does not know the token. -/
theorem compile_unknown (compiler : Compiler) (query : Query) {part text text' : List Char}
    {token : Token} {path : List String} (hpart : Spells part token)
    (h : InsertsBelow part path text text')
    (hunknown : ∀ place, compiler.root.follow? path = some place → place.Ignores token) :
    compiler.select query text' = compiler.select query text :=
  compiler.select_congr query (compiled_of_addsBelow (h.addsBelow hpart) _ hunknown)

/-- In a body that is not closed, an exclusion of something that books do not have. -/
theorem compile_unknown_towns :
    towns.select {} "all,books(title, -isbn=1,author(name)".toList
      = towns.select {} "all,books(title,author(name)".toList := by
  have hfront : Fresh "all,".toList := @Fresh.comma "all".toList (by decide)
  have hmid : Fresh "title,".toList := @Fresh.comma "title".toList (by decide)
  have hpart : Spells " -isbn=1".toList (.except "isbn") :=
    .word (by decide) (by decide) (by decide)
  have h : InsertsBelow " -isbn=1".toList ["books"] "all,books(title,author(name)".toList
      "all,books(title, -isbn=1,author(name)".toList :=
    @InsertsBelow.unclosed _ _ "books".toList _ _ _ 0 hfront (by decide) (by decide) (by decide)
      (by decide) (by decide) (.here (.ahead hmid "author(name)".toList))
  refine compile_unknown towns {} hpart h ?_
  rintro _ ⟨⟩
  decide

end FieldSelection
