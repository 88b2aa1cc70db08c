import Mathlib.Data.List.Induction
import FieldSelection.Level.Request
import FieldSelection.Proofs.Selection.Reading

/-!
Requests as functions of tokens.

A request collects names in the order of their first mention, and every part of it
looks at tokens of its own kind only. So each part has an equation.

* `distinctNames`: the names of a list in the order of their first mention.
* `Place.asked`: the request of a list of tokens; `asked_attributes`,
  `asked_excluded`, `asked_excludedRelations`, `asked_relations` and `asked_all`
  are its parts.
* `NamesOnly.asked_eq`: the request of tokens that name fields and relations only.
* `Request.unplaced`, `unplaced_request`: apart from the places of its bodies, the
  request of a level is the one of its tokens.
-/

namespace FieldSelection

open FieldSelection.Selection

/-! ### Names in the order of their first mention -/

/-- The names of a list, each at its first place only. -/
def distinctNames (names : List String) : List String :=
  names.foldl (fun all name => insertName name all) []

lemma distinctNames_append_singleton (names : List String) (name : String) :
    distinctNames (names ++ [name]) = insertName name (distinctNames names) := by
  simp [distinctNames]

@[simp] lemma mem_insertName {name other : String} {names : List String} :
    other ∈ insertName name names ↔ other = name ∨ other ∈ names := by
  rw [insertName]
  split
  · next h =>
    constructor
    · exact Or.inr
    · rintro (rfl | h')
      · exact h
      · exact h'
  · simp [or_comm]

lemma nodup_insertName {name : String} {names : List String} (h : names.Nodup) :
    (insertName name names).Nodup := by
  rw [insertName]
  split
  · exact h
  · next hn => exact List.nodup_append.mpr ⟨h, by simp, by rintro a ha b hb rfl; simp_all⟩

@[simp] lemma mem_distinctNames {name : String} {names : List String} :
    name ∈ distinctNames names ↔ name ∈ names := by
  induction names using List.reverseRecOn with
  | nil => rfl
  | append_singleton names last ih =>
      rw [distinctNames_append_singleton, mem_insertName, ih, List.mem_append,
        List.mem_singleton, or_comm]

lemma nodup_distinctNames (names : List String) : (distinctNames names).Nodup := by
  induction names using List.reverseRecOn with
  | nil => exact List.nodup_nil
  | append_singleton names last ih =>
      rw [distinctNames_append_singleton]
      exact nodup_insertName ih

/-- Names without repetition are as they were. -/
lemma distinctNames_of_nodup {names : List String} (h : names.Nodup) :
    distinctNames names = names := by
  induction names using List.reverseRecOn with
  | nil => rfl
  | append_singleton names last ih =>
      obtain ⟨hn, -, hdisjoint⟩ := List.nodup_append.mp h
      have hlast : last ∉ names := fun hm => hdisjoint last hm last (by simp) rfl
      rw [distinctNames_append_singleton, ih hn, insertName, if_neg hlast]

/-! ### What a token says -/

/-- The field that a token asks for. -/
def Place.wanted? (place : Place) : Token → Option String
  | .field name | .filter name _ => if place.hasField name then some name else none
  | _ => none

/-- The field that a token excludes. -/
def Place.unwanted? (place : Place) : Token → Option String
  | .except name => if place.hasField name then some name else none
  | _ => none

/-- The relation that a token excludes; a name that is a field excludes the
field. -/
def Place.unwantedRelation? (place : Place) : Token → Option String
  | .except name =>
    if !place.hasField name && (place.enter? name).isSome then some name else none
  | _ => none

/-- The relation that a token names. -/
def relationName? : Token → Option String
  | .relation name _ => some name
  | _ => none

/-- The body that a token gives to a relation. -/
def bodyOf? (name : String) : Token → Option String
  | .relation other body => if other = name then some body else none
  | _ => none

/-- The relations that tokens name, in the order of their first mention. -/
def relationNames (tokens : List Token) : List String :=
  distinctNames (tokens.filterMap relationName?)

/-- The bodies that tokens give to a relation. -/
def bodies (name : String) (tokens : List Token) : List String :=
  tokens.filterMap (bodyOf? name)

lemma mem_relationNames {name : String} {tokens : List Token} :
    name ∈ relationNames tokens ↔ ∃ body, .relation name body ∈ tokens := by
  rw [relationNames, mem_distinctNames, List.mem_filterMap]
  constructor
  · rintro ⟨token, hmem, htoken⟩
    cases token <;> simp only [relationName?, reduceCtorEq, Option.some.injEq] at htoken
    subst htoken
    exact ⟨_, hmem⟩
  · rintro ⟨body, hmem⟩
    exact ⟨_, hmem, rfl⟩

lemma nodup_relationNames (tokens : List Token) : (relationNames tokens).Nodup :=
  nodup_distinctNames _

lemma bodyOf?_eq_some_iff {name body : String} {token : Token} :
    bodyOf? name token = some body ↔ token = .relation name body := by
  cases token with
  | relation other inner =>
      rw [bodyOf?, Option.ite_none_right_eq_some, Option.some.injEq, Token.relation.injEq]
  | _ => exact ⟨nofun, nofun⟩

lemma mem_bodies {name body : String} {tokens : List Token} :
    body ∈ bodies name tokens ↔ .relation name body ∈ tokens := by
  simp only [bodies, List.mem_filterMap, bodyOf?_eq_some_iff, exists_eq_right]

/-- A relation that no token names has no bodies. -/
lemma bodies_eq_nil {name : String} {tokens : List Token} (h : name ∉ relationNames tokens) :
    bodies name tokens = [] :=
  List.eq_nil_iff_forall_not_mem.mpr fun body hbody =>
    h (mem_relationNames.mpr ⟨body, mem_bodies.mp hbody⟩)

/-- A relation that tokens name once has the one body that it is named with. -/
lemma bodies_eq_singleton {name body : String} {tokens : List Token}
    (hn : (tokens.filterMap relationName?).Nodup) (hm : .relation name body ∈ tokens) :
    bodies name tokens = [body] := by
  induction tokens with
  | nil => cases hm
  | cons token tokens ih =>
      rcases List.mem_cons.mp hm with rfl | hlater
      · rw [List.filterMap_cons_some (f := relationName?) rfl] at hn
        have hrest : name ∉ relationNames tokens :=
          mt mem_distinctNames.mp (List.nodup_cons.mp hn).1
        have hbody : bodyOf? name (.relation name body) = some body := if_pos rfl
        rw [bodies, List.filterMap_cons_some hbody, ← bodies, bodies_eq_nil hrest]
      · have hnone : bodyOf? name token = none := by
          refine Option.eq_none_iff_forall_ne_some.mpr fun text htext => ?_
          obtain rfl := bodyOf?_eq_some_iff.mp htext
          have hagain : name ∈ tokens.filterMap relationName? :=
            List.mem_filterMap.mpr ⟨.relation name body, hlater, rfl⟩
          exact (List.nodup_cons.mp hn).1 hagain
        rw [bodies, List.filterMap_cons_none hnone]
        exact ih (hn.sublist ((List.sublist_cons_self token tokens).filterMap relationName?))
          hlater

/-! ### One more token -/

/-- A request with one more token, wherever the token stands. -/
def Request.take (place : Place) (keysMode : Bool) (request : Request) (token : Token) :
    Request :=
  request.add place keysMode 0 ⟨token, ⟨0, 0⟩, none⟩

namespace Request

variable (place : Place) (keysMode : Bool) (request : Request) (token : Token)

lemma take_attributes :
    (request.take place keysMode token).attributes
      = (place.wanted? token).elim request.attributes (insertName · request.attributes) := by
  cases token with
  | field name =>
      by_cases h : place.hasField name <;> simp [take, add, withField, Place.wanted?, h]
  | filter name value =>
      by_cases h : place.hasField name <;> cases keysMode <;>
        simp [take, add, withField, withFilter, Place.wanted?, h]
  | except name =>
      simp only [take, add, withoutField, withoutRelation]
      split_ifs <;> rfl
  | _ => rfl

lemma take_excluded :
    (request.take place keysMode token).excluded
      = (place.unwanted? token).elim request.excluded (insertName · request.excluded) := by
  cases token with
  | field name =>
      by_cases h : place.hasField name <;> simp [take, add, withField, Place.unwanted?, h]
  | filter name value =>
      by_cases h : place.hasField name <;> cases keysMode <;>
        simp [take, add, withField, withFilter, Place.unwanted?, h]
  | except name =>
      simp only [take, add, withoutField, withoutRelation, Place.unwanted?]
      split_ifs <;> rfl
  | _ => rfl

lemma take_excludedRelations :
    (request.take place keysMode token).excludedRelations
      = (place.unwantedRelation? token).elim request.excludedRelations
          (insertName · request.excludedRelations) := by
  cases token with
  | field name =>
      by_cases h : place.hasField name <;> simp [take, add, withField, Place.unwantedRelation?, h]
  | filter name value =>
      by_cases h : place.hasField name <;> cases keysMode <;>
        simp [take, add, withField, withFilter, Place.unwantedRelation?, h]
  | except name =>
      by_cases hf : place.hasField name <;> by_cases hr : (place.enter? name).isSome <;>
        simp [take, add, withoutField, withoutRelation, Place.unwantedRelation?, hf, hr]
  | _ => rfl

lemma take_all :
    (request.take place keysMode token).all = (request.all || decide (token = .all)) := by
  cases token with
  | all => simp [take, add]
  | field name => by_cases h : place.hasField name <;> simp [take, add, withField, h]
  | filter name value =>
      by_cases h : place.hasField name <;> cases keysMode <;>
        simp [take, add, withField, withFilter, h]
  | except name =>
      simp only [take, add, withoutField, withoutRelation]
      split_ifs <;> simp
  | relation name body => simp [take, add, withRelation]

lemma take_relation (name body : String) :
    (request.take place keysMode (.relation name body)).relations
      = insertSegment name ⟨body, 0⟩ request.relations :=
  rfl

lemma take_relations_of_none (h : relationName? token = none) :
    (request.take place keysMode token).relations = request.relations := by
  cases token with
  | field name => by_cases h : place.hasField name <;> simp [take, add, withField, h]
  | filter name value =>
      by_cases h : place.hasField name <;> cases keysMode <;>
        simp [take, add, withField, withFilter, h]
  | except name =>
      simp only [take, add, withoutField, withoutRelation]
      split_ifs <;> rfl
  | all => rfl
  | relation name body => cases h

end Request

/-! ### The request of a list of tokens -/

/-- What a list of tokens asks for at a place. -/
def Place.asked (place : Place) (keysMode : Bool) (tokens : List Token) : Request :=
  tokens.foldl (Request.take place keysMode) {}

namespace Place

variable (place : Place) (keysMode : Bool)

lemma asked_append_singleton (tokens : List Token) (token : Token) :
    place.asked keysMode (tokens ++ [token])
      = (place.asked keysMode tokens).take place keysMode token := by
  simp [asked]

/-- A part of requests in which every token inserts its name holds the names of
the tokens. -/
lemma part_asked (part : Request → List String) {name? : Token → Option String}
    (hnone : part {} = [])
    (hstep : ∀ request token, part (request.take place keysMode token)
      = (name? token).elim (part request) (insertName · (part request)))
    (tokens : List Token) :
    part (place.asked keysMode tokens) = distinctNames (tokens.filterMap name?) := by
  induction tokens using List.reverseRecOn with
  | nil => exact hnone
  | append_singleton tokens token ih =>
      rw [asked_append_singleton, hstep, List.filterMap_append, ih]
      cases h : name? token with
      | none => simp [h]
      | some name => simp [h, distinctNames_append_singleton]

/-- The fields of a request are those that its tokens ask for. -/
lemma asked_attributes (tokens : List Token) :
    (place.asked keysMode tokens).attributes
      = distinctNames (tokens.filterMap place.wanted?) :=
  part_asked place keysMode Request.attributes rfl
    (Request.take_attributes place keysMode) tokens

/-- The excluded fields of a request are those that its tokens exclude. -/
lemma asked_excluded (tokens : List Token) :
    (place.asked keysMode tokens).excluded
      = distinctNames (tokens.filterMap place.unwanted?) :=
  part_asked place keysMode Request.excluded rfl
    (Request.take_excluded place keysMode) tokens

/-- The excluded relations of a request are those that its tokens exclude. -/
lemma asked_excludedRelations (tokens : List Token) :
    (place.asked keysMode tokens).excludedRelations
      = distinctNames (tokens.filterMap place.unwantedRelation?) :=
  part_asked place keysMode Request.excludedRelations rfl
    (Request.take_excludedRelations place keysMode) tokens

/-- A request is for everything if one of its tokens is. -/
lemma asked_all (tokens : List Token) :
    (place.asked keysMode tokens).all = decide (Token.all ∈ tokens) := by
  induction tokens using List.reverseRecOn with
  | nil => rfl
  | append_singleton tokens token ih =>
      rw [asked_append_singleton, Request.take_all, ih]
      simp [Bool.decide_or, eq_comm]

end Place

/-- Without tokens that filter, a request has no filters. -/
lemma Place.asked_filters_eq_nil (place : Place) (keysMode : Bool) {tokens : List Token}
    (h : ∀ name value, Token.filter name value ∉ tokens) :
    (place.asked keysMode tokens).filters = [] := by
  induction tokens using List.reverseRecOn with
  | nil => rfl
  | append_singleton tokens token ih =>
      have hrest := ih fun name value hm => h name value (List.mem_append_left _ hm)
      rw [asked_append_singleton]
      cases token with
      | all => exact hrest
      | field name => by_cases hf : place.hasField name <;>
          simpa [Request.take, Request.add, Request.withField, hf] using hrest
      | except name =>
          simp only [Request.take, Request.add]
          split_ifs <;> exact hrest
      | filter name value => exact absurd (by simp) (h name value)
      | relation name body => exact hrest

/-! ### The relations of a request -/

/-- Where every relation is listed with its own segments, one more segment goes to
the relation it is for. -/
lemma insertSegment_map {names : List String} (hn : names.Nodup) {f : String → List Segment}
    {name : String} (hf : name ∉ names → f name = []) (segment : Segment) :
    insertSegment name segment (names.map fun other => ⟨other, f other⟩)
      = (insertName name names).map fun other =>
          ⟨other, if other = name then f other ++ [segment] else f other⟩ := by
  induction names with
  | nil => simp [insertSegment, insertName, hf]
  | cons first names ih =>
      obtain ⟨hfirst, hrest⟩ := List.nodup_cons.mp hn
      by_cases h : first = name
      · subst h
        have hne : ∀ other ∈ names, other ≠ first := by
          rintro other ho rfl
          exact hfirst ho
        simp only [List.map_cons, insertSegment, insertName, List.mem_cons, true_or, if_pos,
          List.cons.injEq, true_and]
        exact List.map_congr_left fun other ho => by rw [if_neg (hne other ho)]
      · have hne : name ≠ first := Ne.symm h
        have htail := ih hrest fun hnot => hf (by simp [hne, hnot])
        rw [List.map_cons, insertSegment, if_neg h, htail]
        by_cases hmem : name ∈ names <;> simp [insertName, hmem, h, hne]

lemma bodies_append_singleton (name : String) (tokens : List Token) (token : Token) :
    bodies name (tokens ++ [token]) = bodies name tokens ++ (bodyOf? name token).toList := by
  cases h : bodyOf? name token <;> simp [bodies, h]

/-- The relations of a request are those that its tokens name, each with its
bodies in order. -/
lemma Place.asked_relations (place : Place) (keysMode : Bool) (tokens : List Token) :
    (place.asked keysMode tokens).relations
      = (relationNames tokens).map fun name =>
          ⟨name, (bodies name tokens).map (⟨·, 0⟩)⟩ := by
  induction tokens using List.reverseRecOn with
  | nil => rfl
  | append_singleton tokens token ih =>
      rw [asked_append_singleton]
      cases htoken : relationName? token with
      | none =>
          have hbody : ∀ name, bodyOf? name token = none := by
            intro name
            cases token <;> simp_all [relationName?, bodyOf?]
          rw [Request.take_relations_of_none _ _ _ _ htoken, ih]
          simp [relationNames, htoken, bodies_append_singleton, hbody]
      | some name =>
          obtain ⟨body, rfl⟩ : ∃ body, token = .relation name body := by
            cases token <;> simp_all [relationName?]
          have hnames : relationNames (tokens ++ [.relation name body])
              = insertName name (relationNames tokens) := by
            simp [relationNames, relationName?, distinctNames_append_singleton]
          have hnone : name ∉ relationNames tokens →
              (bodies name tokens).map (⟨·, 0⟩ : String → Segment) = [] := by
            intro h
            rw [bodies_eq_nil h, List.map_nil]
          rw [Request.take_relation, ih, hnames, insertSegment_map
            (f := fun name => (bodies name tokens).map (⟨·, 0⟩)) (nodup_relationNames tokens) hnone]
          refine List.map_congr_left fun other _ => ?_
          by_cases h : other = name
          · simp [h, bodies_append_singleton, bodyOf?]
          · simp [h, bodies_append_singleton, bodyOf?, Ne.symm h]

/-! ### Tokens that only name -/

/-- Tokens that name fields and relations and say nothing else. -/
def NamesOnly (tokens : List Token) : Prop :=
  ∀ token ∈ tokens, (∃ name, token = .field name) ∨ ∃ name body, token = .relation name body

/-- What names do not say, such tokens do not say. -/
lemma NamesOnly.filterMap_eq_nil {α : Type} {tokens : List Token} (h : NamesOnly tokens)
    {f : Token → Option α} (hfield : ∀ name, f (.field name) = none)
    (hrelation : ∀ name body, f (.relation name body) = none) : tokens.filterMap f = [] := by
  refine List.filterMap_eq_nil_iff.mpr fun token htoken => ?_
  rcases h token htoken with ⟨name, rfl⟩ | ⟨name, body, rfl⟩
  · exact hfield name
  · exact hrelation name body

lemma NamesOnly.all_notMem {tokens : List Token} (h : NamesOnly tokens) : .all ∉ tokens := by
  intro hmem
  rcases h _ hmem with ⟨name, heq⟩ | ⟨name, body, heq⟩ <;> cases heq

attribute [ext] Request

/-- **Tokens that only name** ask for the fields and the relations that they name. -/
lemma NamesOnly.asked_eq {tokens : List Token} (h : NamesOnly tokens) (place : Place)
    (keysMode : Bool) :
    place.asked keysMode tokens =
      { attributes := distinctNames (tokens.filterMap place.wanted?)
        relations := (relationNames tokens).map fun name =>
          ⟨name, (bodies name tokens).map (⟨·, 0⟩)⟩ } := by
  have hexcluded := h.filterMap_eq_nil (f := place.unwanted?) (fun _ => rfl) fun _ _ => rfl
  have hrelations := h.filterMap_eq_nil (f := place.unwantedRelation?) (fun _ => rfl)
    fun _ _ => rfl
  ext1
  case attributes => exact place.asked_attributes keysMode tokens
  case excluded =>
    rw [place.asked_excluded, hexcluded]
    rfl
  case excludedRelations =>
    rw [place.asked_excludedRelations, hrelations]
    rfl
  case filters =>
    refine place.asked_filters_eq_nil keysMode fun name value hmem => ?_
    rcases h _ hmem with ⟨other, heq⟩ | ⟨other, body, heq⟩ <;> cases heq
  case relations => exact place.asked_relations keysMode tokens
  case all => rw [place.asked_all, decide_eq_false h.all_notMem]

/-! ### Places do not matter -/

/-- A relation with bodies at no place. -/
def RelationRequest.unplaced (relation : RelationRequest) : RelationRequest :=
  { relation with segments := relation.segments.map fun segment => ⟨segment.text, 0⟩ }

/-- A request with bodies at no place. -/
def Request.unplaced (request : Request) : Request :=
  { request with relations := request.relations.map RelationRequest.unplaced }

lemma map_unplaced_insertSegment (name : String) (segment : Segment)
    (relations : List RelationRequest) :
    (insertSegment name segment relations).map RelationRequest.unplaced
      = insertSegment name ⟨segment.text, 0⟩ (relations.map RelationRequest.unplaced) := by
  induction relations with
  | nil => rfl
  | cons relation relations ih =>
      rw [insertSegment, List.map_cons, insertSegment]
      by_cases h : relation.name = name
      · simp [h, RelationRequest.unplaced]
      · have h' : relation.unplaced.name ≠ name := h
        rw [if_neg h, if_neg h', List.map_cons, ih]

lemma unplaced_add (place : Place) (keysMode : Bool) (base : Nat) (request : Request)
    (token : LocatedToken) :
    (request.add place keysMode base token).unplaced
      = request.unplaced.take place keysMode token.token := by
  obtain ⟨token, span, bodyOffset⟩ := token
  cases token with
  | all => rfl
  | field name =>
      simp only [Request.take, Request.add]
      split_ifs <;> rfl
  | except name =>
      simp only [Request.take, Request.add]
      split_ifs <;> rfl
  | filter name value =>
      simp only [Request.take, Request.add]
      split_ifs <;> rfl
  | relation name body =>
      simp only [Request.take, Request.add, Request.withRelation, Request.unplaced,
        map_unplaced_insertSegment]
      rfl

lemma unplaced_addSegment (place : Place) (keysMode : Bool) (request : Request)
    (segment : Segment) :
    (request.addSegment place keysMode segment).unplaced
      = (tokens segment.text.toList).foldl (Request.take place keysMode) request.unplaced := by
  rw [Request.addSegment, ← map_token_tokenize, List.foldl_map]
  induction (tokenize segment.text.toList).tokens generalizing request with
  | nil => rfl
  | cons token rest ih => rw [List.foldl_cons, List.foldl_cons, ih, unplaced_add]

/-- **Places do not matter**: apart from the places of its bodies, a request is the
one of the tokens of all segments in order. -/
lemma unplaced_request (place : Place) (keysMode : Bool) (segments : List Segment) :
    (place.request keysMode segments).unplaced
      = place.asked keysMode (segments.flatMap fun segment => tokens segment.text.toList) := by
  have key : ∀ request : Request,
      (segments.foldl (Request.addSegment place keysMode) request).unplaced
        = (segments.flatMap fun segment => tokens segment.text.toList).foldl
            (Request.take place keysMode) request.unplaced := by
    induction segments with
    | nil => intro request; rfl
    | cons segment rest ih =>
        intro request
        rw [List.foldl_cons, ih, unplaced_addSegment, List.flatMap_cons, List.foldl_append]
  exact key {}

end FieldSelection
