import FieldSelection.Proofs.Level.Descent

/-!
Simulations between places.

Two places that answer all questions of a selection alike, and lead to such places
again, make the same descriptors. The questions are the fields of `Simulation`; what
a place is made of does not matter.

* `Place.Simulation`: a relation between places, each with a query of its own, that
  the answers respect.
* `Simulation.compiled_eq`: places that are related make the same descriptors, by
  induction on the levels that may follow.
-/

namespace FieldSelection

open FieldSelection.Selection

/-- **A simulation between places.** Places that are related have the same fields
and keys, promote the same filters of their queries, and lead by the same relations
to places that are related. -/
structure Place.Simulation (query query' : Query) (R : Place → Place → Prop) : Prop where
  hasField : ∀ {p q : Place}, R p q → ∀ name, p.hasField name = q.hasField name
  noShape : ∀ {p q : Place}, R p q → p.shape.isNone = q.shape.isNone
  fields? : ∀ {p q : Place}, R p q → p.fields? = q.fields?
  isKey : ∀ {p q : Place}, R p q → ∀ names name, p.fields? = some names → name ∈ names →
    p.isKey name = q.isKey name
  promoted : ∀ {p q : Place}, R p q → ∀ attributes excluded,
    p.promoted query (p.filterable query attributes excluded)
      = q.promoted query' (q.filterable query' attributes excluded)
  relations : ∀ {p q : Place}, R p q →
    p.relations.filter (fun name => (p.enter? name).isSome)
      = q.relations.filter fun name => (q.enter? name).isSome
  enter? : ∀ {p q : Place}, R p q → ∀ name, Option.Rel R (p.enter? name) (q.enter? name)

lemma isSome_eq_of_rel {α β : Type} {R : α → β → Prop} {a : Option α} {b : Option β}
    (h : Option.Rel R a b) : a.isSome = b.isSome := by
  cases h <;> rfl

/-- What is found on two sides is equal exactly if it is the same. -/
lemma rel_eq_iff {α : Type} {a b : Option α} : Option.Rel Eq a b ↔ a = b := by
  cases a <;> cases b <;> simp

namespace Place.Simulation

variable {query query' : Query} {R : Place → Place → Prop} {p q : Place}

lemma isSome_enter? (h : Simulation query query' R) (hpq : R p q) (name : String) :
    (p.enter? name).isSome = (q.enter? name).isSome :=
  isSome_eq_of_rel (h.enter? hpq name)

/-- Tokens ask for the same at places that are related. -/
lemma asked_eq (h : Simulation query query' R) (hpq : R p q) (keysMode : Bool)
    (tokens : List Token) : p.asked keysMode tokens = q.asked keysMode tokens := by
  have htake : Request.take p keysMode = Request.take q keysMode := by
    funext request token
    cases token <;> simp only [Request.take, Request.add, h.hasField hpq, h.isSome_enter? hpq]
  rw [asked, asked, htake]

lemma attributes?_eq (h : Simulation query query' R) (hpq : R p q) (keysMode : Bool)
    (request : Request) : p.attributes? keysMode request = q.attributes? keysMode request := by
  rw [attributes?, attributes?, ← h.fields? hpq]
  split
  · cases hf : p.fields? with
    | none => rfl
    | some names =>
        rw [Option.map_some, Option.map_some]
        exact congrArg some (List.filter_congr fun name hn => by rw [h.isKey hpq names name hf hn])
  · rfl

lemma level_eq (h : Simulation query query' R) (hpq : R p q) {options options' : CompileOptions}
    (hkeys : options.includeKeys = options'.includeKeys) (request : Request)
    (includes : List Descriptor) :
    p.level options query request includes = q.level options' query' request includes := by
  simp only [level, hkeys, h.attributes?_eq hpq, h.promoted hpq, h.noShape hpq]

lemma unwantedRelations_eq (h : Simulation query query' R) (hpq : R p q)
    (tokens : List Token) : p.unwantedRelations tokens = q.unwantedRelations tokens := by
  have hone : p.unwantedRelation? = q.unwantedRelation? := by
    funext token
    cases token <;> simp only [unwantedRelation?, h.hasField hpq, h.isSome_enter? hpq]
  rw [unwantedRelations, unwantedRelations, hone]

/-- A place leads nowhere by a relation that it does not know, so only the relations
it knows count for the levels below. -/
lemma filterMap_below (options : CompileOptions) (query : Query) (room : Nat) (place : Place)
    (tokens : String → List Token) (names : List String) :
    names.filterMap (fun name => place.below options query room name (tokens name))
      = (names.filter fun name => (place.enter? name).isSome).filterMap fun name =>
          place.below options query room name (tokens name) := by
  rw [List.filterMap_filter]
  refine List.filterMap_congr fun name _ => ?_
  cases hn : place.enter? name <;> simp [below, hn]

lemma known_unnamed (place : Place) (tokens : List Token) :
    (place.unnamed tokens).filter (fun name => (place.enter? name).isSome)
      = if .all ∈ tokens then
          (place.relations.filter fun name => (place.enter? name).isSome).filter fun name =>
            name ∉ relationNames tokens && name ∉ place.unwantedRelations tokens
        else [] := by
  rw [unnamed]
  split
  · rw [List.filter_filter, List.filter_filter]
    exact List.filter_congr fun name _ => Bool.and_comm _ _
  · rfl

/-- **Places that are related make the same descriptors.** -/
lemma compiled_eq (h : Simulation query query' R) (options options' : CompileOptions)
    (hkeys : options.includeKeys = options'.includeKeys) (room : Nat) (hpq : R p q)
    (tokens : List Token) :
    p.compiled options query room tokens = q.compiled options' query' room tokens := by
  induction room generalizing p q tokens with
  | zero =>
      rw [compiled_zero, compiled_zero, h.level_eq hpq hkeys, ← hkeys, h.asked_eq hpq]
  | succ room ih =>
      have hbelow : ∀ name list, p.below options query room name list
          = q.below options' query' room name list := by
        intro name list
        have hrel := h.enter? hpq name
        rw [below, below]
        generalize p.enter? name = next, q.enter? name = next' at hrel
        cases hrel with
        | none => rfl
        | some hnext => rw [Option.map_some, Option.map_some, ih hnext]
      have hunnamed : (p.unnamed tokens).filterMap
            (fun name => p.below options query room name [.all])
          = (q.unnamed tokens).filterMap fun name => q.below options' query' room name [.all] := by
        rw [filterMap_below, filterMap_below options' query', known_unnamed, known_unnamed,
          h.relations hpq, h.unwantedRelations_eq hpq]
        exact List.filterMap_congr fun name _ => hbelow name [.all]
      rw [compiled_succ, compiled_succ, h.level_eq hpq hkeys, ← hkeys, h.asked_eq hpq, hunnamed]
      simp only [hbelow]

end Place.Simulation

end FieldSelection
