import FieldSelection.Proofs.Compiler.Truncation
import FieldSelection.Proofs.Compiler.Warnings
import FieldSelection.Proofs.Level.Answers

/-!
Warnings about nesting, and what one more level brings.

A relation is noted as nested too deeply before it is looked up. So the note is a promise
that is kept only if the relation is known: with one more level there is an include for it
exactly if the shape and the model know it.

* `Place.mem_asksFor_iff`, `tokensIn_segmentsBelow`: what bodies ask for, and what they hand
  on, by their tokens.
* `Place.Descends.at?_eq_some`: a level that bodies lead to stands in their descriptor, as
  far as there is room for it.
* `Compiler.CutOff`: a relation at the nesting limit, with its level in two descriptors.
* `tooDeep_cutOff`: every warning about nesting is about such a relation.
-/

namespace FieldSelection

open FieldSelection.Selection

/-! ### Bodies by their tokens -/

/-- The tokens of the bodies of a level. -/
def tokensIn (segments : List Segment) : List Token :=
  segments.flatMap fun segment => tokens segment.text.toList

/-- Bodies mention the relations that their tokens name. -/
lemma mem_mentionsIn_iff {segments : List Segment} {name : String} :
    name ∈ (mentionsIn segments).map (·.name) ↔ name ∈ relationNames (tokensIn segments) := by
  -- both are the relations of the request, which is the same at every place
  have hrequest := unplaced_request ⟨none, none, ""⟩ false segments
  constructor
  · intro hname
    have hrelation : ⟨name, segmentsBelow name segments⟩
        ∈ (Place.request ⟨none, none, ""⟩ false segments).relations :=
      Place.mem_relations_request.mpr ⟨hname, rfl⟩
    exact (Place.named_of_mem_relations hrequest hrelation).1
  · intro hname
    obtain ⟨relation, hrelation, rfl, -⟩ := Place.exists_relation_of_unplaced hrequest hname
    exact (Place.mem_relations_request.mp hrelation).1

/-- **The bodies behind a relation** have the tokens below it. -/
lemma tokensIn_segmentsBelow (name : String) (segments : List Segment) :
    tokensIn (segmentsBelow name segments) = tokensBelow name (tokensIn segments) := by
  rw [tokensBelow]
  split
  · next hname =>
    have hrequest := unplaced_request ⟨none, none, ""⟩ false segments
    obtain ⟨relation, hrelation, rfl, htokens⟩ :=
      Place.exists_relation_of_unplaced hrequest hname
    rw [← (Place.mem_relations_request.mp hrelation).2]
    exact htokens
  · next hname =>
    rw [segmentsBelow, if_neg (mt mem_mentionsIn_iff.mp hname)]
    rfl

namespace Place

variable {options : CompileOptions} {place last : Place} {segments bodies : List Segment}

/-- Bodies ask for the relations that their tokens name and for those that a token `all`
adds. -/
lemma mem_asksFor_iff {keysMode : Bool} {name : String} :
    name ∈ place.asksFor keysMode segments ↔
      name ∈ relationNames (tokensIn segments) ∨ name ∈ place.unnamed (tokensIn segments) := by
  have hnamed : name ∈ (place.request keysMode segments).relations.map (·.name) ↔
      name ∈ relationNames (tokensIn segments) := by
    rw [← mem_mentionsIn_iff, List.mem_map]
    constructor
    · rintro ⟨relation, hrelation, rfl⟩
      exact (mem_relations_request.mp hrelation).1
    · intro hname
      exact ⟨⟨name, segmentsBelow name segments⟩, mem_relations_request.mpr ⟨hname, rfl⟩, rfl⟩
  rw [asksFor, List.mem_append, hnamed,
    walked_eq_unnamed (unplaced_request place keysMode segments)]
  rfl

/-- **A level that bodies lead to** stands in the descriptor of their tokens, if there is room
for it, and is made with the room that is left. -/
lemma Descends.at?_eq_some {query : Query} {left : Nat} {descriptor : Descriptor}
    {path : List String} (h : place.Descends options.includeKeys segments path last bodies)
    (hbare : descriptor.bare
      = place.compiled options query (path.length + left) (tokensIn segments)) :
    ∃ level, descriptor.at? path = some level ∧ place.follow? path = some last ∧
      level.bare = last.compiled options query left (tokensIn bodies) := by
  induction h generalizing descriptor with
  | here place segments =>
      rw [List.length_nil, Nat.zero_add] at hbare
      exact ⟨descriptor, rfl, rfl, hbare⟩
  | @down place mid last segments bodies name path hasked hmid _ ih =>
      have hroom : (name :: path).length + left = path.length + left + 1 :=
        Nat.succ_add path.length left
      have hchild : descriptor.include? name = some ((mid.compiled options query
          (path.length + left) (tokensIn (segmentsBelow name segments))).under name) := by
        rw [← descriptor.include?_bare, hbare, hroom, include?_compiled_succ,
          if_pos (mem_asksFor_iff.mp hasked), Place.below, hmid, Option.map_some,
          tokensIn_segmentsBelow]
      have hmidBare := (Descriptor.bare_under _ name).trans (bare_compiled options query mid
        (tokensIn (segmentsBelow name segments)) (path.length + left))
      obtain ⟨level, hlevel, hlast, heq⟩ := ih hmidBare
      refine ⟨level, ?_, ?_, heq⟩
      · rw [Descriptor.at?, hchild, Option.bind_some, hlevel]
      · rw [follow?, hmid, Option.bind_some, hlast]

end Place

/-! ### Relations at the nesting limit -/

/-- A relation that the nesting limit cuts off: where it stands, its level in the descriptor
and, as `deeper`, the same level in the descriptor that one more level of nesting makes. That
one includes the relation exactly if it is known there. -/
structure Compiler.CutOff (compiler : Compiler) (query : Query) (depth : Nat) (name : String)
    (path : List String) (place : Place) (level deeper : Descriptor) : Prop where
  length : path.length = depth
  followed : compiler.root.follow? path = some place
  here : ((compiler.withMaxDepth depth).compile query).at? path = some level
  there : ((compiler.withMaxDepth (depth + 1)).compile query).at? path = some deeper
  lacks : level.include? name = none
  listed : (deeper.include? name).isSome = (place.enter? name).isSome

lemma Compiler.tokensIn_segments (compiler : Compiler) (query : Query) :
    tokensIn (compiler.segments query) = compiler.tokens query :=
  List.flatMap_singleton ..

/-- **A warning about nesting is about a relation that the limit cuts off.** The descriptor has
the level of the relation without an include for it; with one more level of nesting it has the
include exactly if the shape and the model of that level know the relation. For a name that they
do not know the warning is a false alarm. -/
theorem tooDeep_cutOff (compiler : Compiler) (query : Query) (depth : Nat) {note : Note}
    {name : String} {limit : Nat} (hnote : note ∈ (compiler.withMaxDepth depth).notes query)
    (hcause : note.cause = .tooDeep name limit) :
    limit = depth ∧ ∃ path place level deeper, note.path = place.displayPath ∧
      compiler.CutOff query depth name path place level deeper := by
  obtain ⟨path, place, bodies, left, hdescends, hlength, hnoted⟩ :=
    Compiler.mem_notes_iff.mp hnote
  obtain ⟨rfl, hasked, hlimit, hpath⟩ := hnoted.of_tooDeep hcause
  have hdepth : path.length = depth := hlength
  -- the same way down, once without room at its end and once with room for one level
  have hlevel (extra : Nat) :
      ∃ level, ((compiler.withMaxDepth (depth + extra)).compile query).at? path = some level ∧
        compiler.root.follow? path = some place ∧
        level.bare = place.compiled (compiler.withMaxDepth (depth + extra)).options query extra
          (tokensIn bodies) := by
    refine Place.Descends.at?_eq_some hdescends ?_
    rw [Compiler.bare_compile, Compiler.tokensIn_segments, hdepth]
    rfl
  obtain ⟨level, hat, hplace, hbare⟩ := hlevel 0
  obtain ⟨deeper, hatDeeper, -, hbareDeeper⟩ := hlevel 1
  refine ⟨hlimit, path, place, level, deeper, hpath, hdepth, hplace, hat, hatDeeper, ?_, ?_⟩
  · rw [← level.include?_bare, hbare]
    rfl
  · rw [← deeper.include?_bare, hbareDeeper, Place.include?_compiled_succ,
      if_pos (Place.mem_asksFor_iff.mp hasked), Place.below, Option.isSome_map]

/-- With room for one level, the furniture in the rooms is cut off, as is noted; with room for two
it is there. -/
theorem tooDeep_cutOff_houses :
    ⟨.tooDeep "furniture" 1, "rooms", ⟨0, 0⟩⟩ ∈ (houses.withMaxDepth 1).notes houseQuery ∧
      (∃ path place level deeper, "rooms" = place.displayPath ∧
        houses.CutOff houseQuery 1 "furniture" path place level deeper) ∧
      ((((houses.withMaxDepth 2).compile houseQuery).at? ["rooms"]).bind
        (·.include? "furniture")).isSome = true := by
  have hnote : ⟨.tooDeep "furniture" 1, "rooms", ⟨0, 0⟩⟩
      ∈ (houses.withMaxDepth 1).notes houseQuery := by decide
  exact ⟨hnote, (tooDeep_cutOff houses houseQuery 1 hnote rfl).2, by decide⟩

/-- Asks for owners with their other houses, which are misspelled. -/
def misspelledQuery : Query where
  fields := some "owner(name,hosues(street))"

/-- The warning that the misspelled relation is nested too deeply is a false alarm: with one more
level of nesting, the descriptor is the same. -/
theorem misspelled_false_alarm :
    ⟨.tooDeep "hosues" 1, "owner", ⟨18, 24⟩⟩ ∈ (houses.withMaxDepth 1).notes misspelledQuery ∧
      (houses.withMaxDepth 2).compile misspelledQuery
        = (houses.withMaxDepth 1).compile misspelledQuery :=
  ⟨by decide, rfl⟩

end FieldSelection
